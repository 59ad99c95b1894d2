import Mathlib.Data.List.Induction
import VisualNovel.Library

/-!
# The tables of the library stay in step

A load writes three tables one after the other: the path under the title, the script under the
title, the text under the path. Their keys differ, and a path may be loaded again with another
text, or be refused this time. What keeps them in step is that the title is taken from the path:
the text of another path is never the one that a script was read from.

Whether a load is refused is settled before the first table is written (`loadInPlace_cases`), so a
load that is refused leaves the library as it was.

> `Library.InStep.after`: one more load keeps the tables in step.

> `Library.keeps_afterAll`: a title stays with its path.

> `Library.loads_in_step`: the tables after any loads.
-/

namespace VisualNovel

namespace Library

/-- What reading a path came to. -/
structure Reading where
  path : String
  content : Except FileError String

/-- The library that a load leaves, whether it was refused or not. -/
def after (l : Library) (r : Reading) : Library := (l.loadInPlace r.path r.content).2

/-- The library that loads leave, one after the other. -/
def afterAll (l : Library) (rs : List Reading) : Library := rs.foldl after l

/-- Why a load is refused: the path cannot be read, it names no file, or its title belongs to
another path. -/
inductive Refuses (l : Library) (path : String) : Except FileError String → LibraryError → Prop
  | unreadable (cause : FileError) : Refuses l path (.error cause) (.unreadable path cause)
  | unnamed (text : String) (nameless : Path.stem? path = none) :
    Refuses l path (.ok text) (.unnamed path)
  | taken (text : String) {title first : String} (named : Path.stem? path = some title)
      (held : l.paths.find? title = some first) (other : Path.parts first ≠ Path.parts path) :
    Refuses l path (.ok text) (.titleTaken title first path)

/-- Among loads that began with an empty library, the last one of the path that was not refused
had this text. -/
inductive LastLoaded : List Reading → String → String → Prop
  | now {rs : List Reading} {path text : String}
      (admitted : ∀ e, ¬(empty.afterAll rs).Refuses path (.ok text) e) :
    LastLoaded (rs ++ [⟨path, .ok text⟩]) path text
  | before {rs : List Reading} {path text : String} (h : LastLoaded rs path text) (r : Reading)
      (refused : r.path = path → ∃ e, (empty.afterAll rs).Refuses r.path r.content e) :
    LastLoaded (rs ++ [r]) path text

variable {l : Library} {path title text : String} {content : Except FileError String}
  {e : LibraryError} {script : Script.Entry}

/-! ## One load -/

/-- A title is taken if it was first loaded from another path. -/
theorem collision?_eq_some_iff : l.collision? title path = some e ↔
    ∃ first, l.paths.find? title = some first ∧ Path.parts first ≠ Path.parts path ∧
      e = .titleTaken title first path := by
  unfold collision?
  cases l.paths.find? title with
  | none => simp
  | some first =>
    by_cases same : Path.parts first = Path.parts path
    · simp [same]
    · simp only [if_neg same, Option.some.injEq]
      exact ⟨fun h => ⟨first, rfl, same, h.symm⟩, fun ⟨_, rfl, _, h⟩ => h.symm⟩

theorem collision?_eq_none_iff : l.collision? title path = none ↔
    ∀ first, l.paths.find? title = some first → Path.parts first = Path.parts path := by
  unfold collision?
  cases l.paths.find? title with
  | none => simp
  | some first => simp

/-- The library with the script of a text under a title. -/
def holding (l : Library) (title path text : String) : Library where
  scripts := l.scripts.insert title ⟨title, Script.parse text.toList⟩
  sources := l.sources.insert path text
  paths := l.paths.insert title path

/-- A load is refused and changes nothing, or its title is free for the path and is given the
script. -/
theorem loadInPlace_cases (l : Library) (path : String) (content : Except FileError String) :
    (∃ e, l.Refuses path content e ∧ l.loadInPlace path content = (.error e, l)) ∨
      ∃ title text, content = .ok text ∧ Path.stem? path = some title ∧
        (∀ first, l.paths.find? title = some first → Path.parts first = Path.parts path) ∧
        l.loadInPlace path content =
          (.ok ⟨title, Script.parse text.toList⟩, l.holding title path text) := by
  unfold loadInPlace
  cases content with
  | error cause => exact .inl ⟨_, .unreadable cause, rfl⟩
  | ok text =>
    dsimp only
    cases named : Path.stem? path with
    | none => exact .inl ⟨_, .unnamed text named, rfl⟩
    | some title =>
      dsimp only
      cases taken : l.collision? title path with
      | some e =>
        obtain ⟨first, held, other, rfl⟩ := collision?_eq_some_iff.mp taken
        exact .inl ⟨_, .taken text named held other, rfl⟩
      | none => exact .inr ⟨title, text, rfl, rfl, collision?_eq_none_iff.mp taken, rfl⟩

/-- There is one reason to refuse a load. -/
theorem Refuses.unique {e' : LibraryError} (h : l.Refuses path content e)
    (h' : l.Refuses path content e') : e = e' := by
  cases h with
  | unreadable => cases h' with
    | unreadable => rfl
  | unnamed _ nameless => cases h' with
    | unnamed => rfl
    | taken _ named => exact absurd (named.symm.trans nameless) (Option.some_ne_none _)
  | taken _ named held => cases h' with
    | unnamed _ nameless => exact absurd (named.symm.trans nameless) (Option.some_ne_none _)
    | taken _ named' held' =>
      obtain rfl := Option.some.inj (named.symm.trans named')
      obtain rfl := Option.some.inj (held.symm.trans held')
      rfl

/-- A load is not refused a title that is free for the path. -/
theorem not_refuses (named : Path.stem? path = some title)
    (free : ∀ first, l.paths.find? title = some first → Path.parts first = Path.parts path) :
    ¬l.Refuses path (.ok text) e := by
  intro refused
  cases refused with
  | unnamed _ nameless => exact absurd (named.symm.trans nameless) (Option.some_ne_none title)
  | taken _ named' held other =>
    obtain rfl := Option.some.inj (named.symm.trans named')
    exact other (free _ held)

/-- A load fails exactly if it is refused. -/
theorem load_eq_error_iff : l.load path content = .error e ↔ l.Refuses path content e := by
  unfold load
  rcases loadInPlace_cases l path content with
    ⟨e', refused, run⟩ | ⟨title, text, rfl, named, free, run⟩
  · rw [run]
    exact ⟨fun failed => Except.error.inj failed ▸ refused, fun h => congrArg _ (refused.unique h)⟩
  · rw [run]
    exact iff_of_false nofun (not_refuses named free)

/-- A load that is refused leaves the library, and one that is not gives its title the script. -/
theorem after_cases (l : Library) (r : Reading) :
    (∃ e, l.Refuses r.path r.content e) ∧ l.after r = l ∨
      ∃ title text, r.content = .ok text ∧ Path.stem? r.path = some title ∧
        (∀ first, l.paths.find? title = some first → Path.parts first = Path.parts r.path) ∧
        l.after r = l.holding title r.path text := by
  unfold after
  rcases loadInPlace_cases l r.path r.content with
    ⟨e, refused, run⟩ | ⟨title, text, read, named, free, run⟩
  · exact .inl ⟨⟨e, refused⟩, by rw [run]⟩
  · exact .inr ⟨title, text, read, named, free, by rw [run]⟩

/-! ## Any loads -/

/-- What the tables of a library have to do with one another, and with the loads before: a title
with a script has a path and the other way round, the title is the stem of that path and the
script is that of its text, and the texts are those of the last loads. -/
structure InStep (rs : List Reading) (l : Library) : Prop where
  titled : ∀ title, (l.scripts.find? title).isSome = (l.paths.find? title).isSome
  parsed : ∀ {title script path}, l.scripts.find? title = some script →
    l.paths.find? title = some path → Path.stem? path = some title ∧
      ∃ text, l.sources.find? path = some text ∧ script = ⟨title, Script.parse text.toList⟩
  cached : ∀ {path text}, l.sources.find? path = some text → LastLoaded rs path text

theorem inStep_empty : InStep [] empty :=
  ⟨fun _ => rfl, nofun, nofun⟩

variable {rs : List Reading} {r : Reading}

/-- The text under a path after a load that was not refused is that of the last load. -/
theorem LastLoaded.holding (h : InStep rs (empty.afterAll rs))
    (admitted : ∀ e, ¬(empty.afterAll rs).Refuses path (.ok text) e) {path' text' : String}
    (cached : ((empty.afterAll rs).holding title path text).sources.find? path' = some text') :
    LastLoaded (rs ++ [⟨path, .ok text⟩]) path' text' := by
  simp only [Library.holding, Table.find?_insert] at cached
  split at cached
  next same =>
    subst same
    obtain rfl := Option.some.inj cached
    exact .now admitted
  next other => exact (h.cached cached).before _ fun same => absurd same.symm other

/-- One more load keeps the tables in step. -/
theorem InStep.after (h : InStep rs (empty.afterAll rs)) (r : Reading) :
    InStep (rs ++ [r]) ((empty.afterAll rs).after r) := by
  rcases after_cases (empty.afterAll rs) r with
    ⟨refused, left⟩ | ⟨title, text, read, named, free, left⟩
  · rw [left]
    exact ⟨h.titled, h.parsed, fun cached => (h.cached cached).before r fun _ => refused⟩
  · -- Each table is written under its own key, and every other key keeps what it has.
    obtain ⟨path, content⟩ := r
    obtain rfl : content = .ok text := read
    rw [left]
    refine ⟨fun title' => ?_, fun {title' script path'} scripted held => ?_,
      .holding h fun e => not_refuses named free⟩
    · simp only [Library.holding, Table.find?_insert]
      split
      next => rfl
      next => exact h.titled title'
    · simp only [Library.holding, Table.find?_insert] at scripted held ⊢
      by_cases same : title' = title
      · subst same
        rw [if_pos rfl, Option.some.injEq] at scripted held
        subst held
        exact ⟨named, text, if_pos rfl, scripted.symm⟩
      · rw [if_neg same] at scripted held
        obtain ⟨named', text', cached, script⟩ := h.parsed scripted held
        -- The path of another title is another path, whose text stays.
        have other : path' ≠ path := fun eq =>
          same (Option.some.inj (named'.symm.trans (eq ▸ named)))
        exact ⟨named', text', by rwa [if_neg other], script⟩

theorem afterAll_concat (l : Library) (rs : List Reading) (r : Reading) :
    l.afterAll (rs ++ [r]) = (l.afterAll rs).after r := by
  simp only [afterAll, List.foldl_append, List.foldl_cons, List.foldl_nil]

/-- After any loads the tables are in step. -/
theorem inStep_afterAll (rs : List Reading) : InStep rs (empty.afterAll rs) := by
  -- On the last load: what the texts come from is said of the loads up to it.
  induction rs using List.reverseRecOn with
  | nil => exact inStep_empty
  | append_singleton rs r ih =>
    rw [afterAll_concat]
    exact ih.after r

/-! ## Titles and their paths -/

/-- A title that belongs to one path belongs to the same path later. -/
def Keeps (l l' : Library) : Prop :=
  ∀ title path, l.paths.find? title = some path →
    ∃ later, l'.paths.find? title = some later ∧ Path.parts later = Path.parts path

theorem Keeps.trans {l l' l'' : Library} (h : l.Keeps l') (h' : l'.Keeps l'') : l.Keeps l'' := by
  intro title path held
  obtain ⟨path', held', same⟩ := h title path held
  obtain ⟨path'', held'', same'⟩ := h' title path' held'
  exact ⟨path'', held'', same'.trans same⟩

/-- A reading keeps the paths of the titles that were loaded before. -/
theorem keeps_after (l : Library) (r : Reading) : l.Keeps (l.after r) := by
  intro title path held
  rcases after_cases l r with ⟨-, left⟩ | ⟨title', text, -, -, free, left⟩
  · exact ⟨path, by rwa [left], rfl⟩
  · simp only [left, holding, Table.find?_insert]
    by_cases same : title = title'
    · subst same
      exact ⟨r.path, if_pos rfl, (free path held).symm⟩
    · exact ⟨path, by rwa [if_neg same], rfl⟩

theorem keeps_afterAll (l : Library) (rs : List Reading) : l.Keeps (l.afterAll rs) := by
  induction rs generalizing l with
  | nil => exact fun title path held => ⟨path, held, rfl⟩
  | cons r rs ih => exact (keeps_after l r).trans (ih (l.after r))

/-- After any loads into an empty library, refused or not, every title with a script has one
path and the other way round. The title is the stem of the path, and the script is that of the
text kept for the path, the text of its last load. Whatever is loaded then, the title stays with
the path. A load fails exactly if it is refused, and then it leaves the library as it was. -/
theorem loads_in_step (rs : List Reading) :
    let l := empty.afterAll rs
    (∀ title, (l.find? title).isSome = (l.paths.find? title).isSome) ∧
      (∀ title script, l.find? title = some script → ∃ path text,
        l.paths.find? title = some path ∧ Path.stem? path = some title ∧
          l.sources.find? path = some text ∧ LastLoaded rs path text ∧
          script = ⟨title, Script.parse text.toList⟩) ∧
      (∀ title path more, l.paths.find? title = some path → ∃ later,
        (l.afterAll more).paths.find? title = some later ∧
          Path.parts later = Path.parts path) ∧
      ∀ r e, (l.load r.path r.content = .error e ↔ l.Refuses r.path r.content e) ∧
        (l.load r.path r.content = .error e → l.after r = l) := by
  intro l
  have inStep : InStep rs l := inStep_afterAll rs
  refine ⟨inStep.titled, fun title script scripted => ?_,
    fun title path more => keeps_afterAll l more title path,
    fun r e => ⟨load_eq_error_iff, fun failed => ?_⟩⟩
  · have titled := inStep.titled title
    rw [show l.scripts.find? title = some script from scripted] at titled
    obtain ⟨path, held⟩ := Option.isSome_iff_exists.mp titled.symm
    obtain ⟨named, text, cached, parsed⟩ := inStep.parsed scripted held
    exact ⟨path, text, held, named, cached, inStep.cached cached, parsed⟩
  · rcases after_cases l r with ⟨-, left⟩ | ⟨title, text, read, named, free, -⟩
    · exact left
    · have refused := load_eq_error_iff.mp failed
      rw [read] at refused
      exact absurd refused (not_refuses named free)

/-- A script is loaded again under another spelling of its path and with another text. Its title
is refused to another path, and a text that can no longer be read stays. -/
theorem loads_in_step_respelled :
    let rs : List Reading := [⟨"p/intro.txt", .ok "a"⟩, ⟨"p/sub/intro.nvl", .ok "b"⟩,
      ⟨"p//intro.txt", .ok "c"⟩, ⟨"p//intro.txt", .error .notFound⟩]
    let l := empty.afterAll rs
    (∃ script, l.find? "intro" = some script ∧ l.paths.find? "intro" = some "p//intro.txt" ∧
      LastLoaded rs "p//intro.txt" "c" ∧ script = ⟨"intro", Script.parse "c".toList⟩) ∧
      (∃ later, (l.afterAll rs).paths.find? "intro" = some later ∧
        Path.parts later = Path.parts "p//intro.txt") ∧
      ∃ e, l.load "p/sub/intro.nvl" (.ok "b") = .error e ∧
        l.after ⟨"p/sub/intro.nvl", .ok "b"⟩ = l := by
  intro rs l
  obtain ⟨titled, scripted, stays, fails⟩ := loads_in_step rs
  have held : l.paths.find? "intro" = some "p//intro.txt" := by decide +kernel
  have kept : l.sources.find? "p//intro.txt" = some "c" := by decide +kernel
  refine ⟨?_, stays _ _ rs held, ?_⟩
  · have some_script := titled "intro"
    rw [show (empty.afterAll rs).paths.find? "intro" = _ from held] at some_script
    obtain ⟨script, found⟩ := Option.isSome_iff_exists.mp some_script
    obtain ⟨path, text, held', -, cached, last, parsed⟩ := scripted "intro" script found
    obtain rfl := Option.some.inj (held'.symm.trans held)
    obtain rfl := Option.some.inj (cached.symm.trans kept)
    exact ⟨script, found, held, last, parsed⟩
  · have refused : l.Refuses "p/sub/intro.nvl" (.ok "b") _ :=
      .taken "b" (by decide +kernel) held (by decide +kernel)
    obtain ⟨failed, left⟩ := fails ⟨"p/sub/intro.nvl", .ok "b"⟩ _
    exact ⟨_, failed.mpr refused, left (failed.mpr refused)⟩

end Library

end VisualNovel
