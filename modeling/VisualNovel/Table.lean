/-!
# Tables with text keys

A table lists its entries in the order their keys first came in, no key twice.
Looking up, adding, removing and changing entries are given on the list; the lemmas
say what each does to every look-up.
-/

namespace VisualNovel

/-- A finite map from texts. -/
structure Table (α : Type) where
  entries : List (String × α)
  nodup_keys : (entries.map Prod.fst).Nodup

namespace Table

variable {α β : Type}

/-- A table is its entries. -/
theorem ext {s t : Table α} (h : s.entries = t.entries) : s = t := by
  cases s; cases t; cases h; rfl

instance [DecidableEq α] : DecidableEq (Table α) := fun s t =>
  if h : s.entries = t.entries then isTrue (ext h)
  else isFalse fun e => h (congrArg entries e)

/-- The table without entries. -/
def empty : Table α := ⟨[], List.nodup_nil⟩

instance : Inhabited (Table α) := ⟨empty⟩

/-- The keys in order. -/
def keys (t : Table α) : List String := t.entries.map Prod.fst

/-- The value of a key. -/
def find? (t : Table α) (key : String) : Option α :=
  (t.entries.find? fun e => e.1 == key).map Prod.snd

/-- Whether a key has a value. -/
def contains (t : Table α) (key : String) : Bool := t.entries.any fun e => e.1 == key

/-- The table with the values changed, each in view of its key. -/
def mapValues (f : String → α → α) (t : Table α) : Table α :=
  ⟨t.entries.map fun e => (e.1, f e.1 e.2), by
    simpa [List.map_map, Function.comp_def] using t.nodup_keys⟩

/-- The table with the value of one key changed. -/
def modify (t : Table α) (key : String) (f : α → α) : Table α :=
  t.mapValues fun k v => if k = key then f v else v

/-- The table without a key. -/
def erase (t : Table α) (key : String) : Table α :=
  ⟨t.entries.filter fun e => e.1 != key,
    List.Sublist.nodup (List.filter_sublist.map _) t.nodup_keys⟩

/-- The table with a value for a key: in the place of the old value, or at the end. -/
def insert (t : Table α) (key : String) (value : α) : Table α :=
  if h : t.contains key then t.modify key fun _ => value
  else ⟨t.entries ++ [(key, value)], by
    simp only [contains, List.any_eq_true, beq_iff_eq, not_exists, not_and] at h
    rw [List.map_append, List.nodup_append]
    refine ⟨t.nodup_keys, by simp, ?_⟩
    intro a ha b hb
    obtain ⟨e, he, rfl⟩ := List.mem_map.1 ha
    simp only [List.map_cons, List.map_nil, List.mem_singleton] at hb
    subst hb
    exact h e he⟩

/-- The table of the entries of a list, later ones replacing earlier ones. -/
def ofList (es : List (String × α)) : Table α :=
  es.foldl (fun t e => t.insert e.1 e.2) empty

theorem find?_empty (key : String) : (empty : Table α).find? key = none := rfl

/-- Changing values changes what is found for each key, and no more keys are found. -/
theorem find?_mapValues (f : String → α → α) (t : Table α) (key : String) :
    (t.mapValues f).find? key = (t.find? key).map (f key) := by
  obtain ⟨es, hn⟩ := t
  simp only [find?, mapValues]
  clear hn
  induction es with
  | nil => rfl
  | cons e es ih =>
    by_cases h : e.1 = key
    · subst h; simp
    · simp only [List.map_cons]
      rw [List.find?_cons_of_neg (by simpa using h), List.find?_cons_of_neg (by simpa using h)]
      exact ih

/-- Changing the value of a key is seen at that key only, and not at all if it has no value. -/
theorem find?_modify (t : Table α) (key : String) (f : α → α) (k : String) :
    (t.modify key f).find? k = if k = key then (t.find? k).map f else t.find? k := by
  rw [modify, find?_mapValues]
  split <;> simp

/-- A removed key is not found, and every other one as before. -/
theorem find?_erase (t : Table α) (key k : String) :
    (t.erase key).find? k = if k = key then none else t.find? k := by
  obtain ⟨es, _⟩ := t
  simp only [find?, erase, List.find?_filter]
  split
  · next h =>
    subst h
    simp
  · next h =>
    congr 2
    funext e
    by_cases he : e.1 = k
    · subst he; simp [h]
    · simp [he]

/-- A key has a value if one is found for it. -/
theorem contains_eq_isSome (t : Table α) (key : String) :
    t.contains key = (t.find? key).isSome := by
  rw [Bool.eq_iff_iff]
  simp [contains, find?, List.find?_isSome]

/-- An added value is found at its key, whether or not there was one before. -/
theorem find?_insert (t : Table α) (key : String) (value : α) (k : String) :
    (t.insert key value).find? k = if k = key then some value else t.find? k := by
  unfold insert
  split
  · next h =>
    rw [find?_modify]
    split
    · next hk =>
      subst hk
      rw [contains_eq_isSome] at h
      obtain ⟨v, hv⟩ := Option.isSome_iff_exists.1 h
      simp [hv]
    · rfl
  · next h =>
    simp only [find?, List.find?_append]
    split
    · next hk =>
      subst hk
      have : t.entries.find? (fun e => e.1 == k) = none := by
        simp only [contains, Bool.not_eq_true] at h
        rw [List.find?_eq_none]
        intro e he
        have := List.any_eq_false.1 h e he
        simpa using this
      simp [this]
    · next hk =>
      have : ([(key, value)] : List (String × α)).find? (fun e => e.1 == k) = none := by
        simp [Ne.symm hk]
      rw [this]
      simp

end Table

end VisualNovel
