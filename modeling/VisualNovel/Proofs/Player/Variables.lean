import VisualNovel.Condition

/-!
# What a variable equals after it was assigned to

A variable holds the text that it was given, and what it is compared with is a text as well. The
two are compared as numbers if both read as numbers, so a text is equal to itself unless it reads
as something that no number is equal to. Of the texts that read as numbers these are the spellings
of one word (`Fp.any_isNaN_read?`): every decimal is rounded to a number or to an infinity.

> `find?_assign`: an assignment writes its own variable and no other.

> `assigned_equals_iff`: what comparing variables answers after an assignment.
-/

namespace VisualNovel

namespace Fp

variable {F : FloatFormat}

/-! ## Which texts read as something that is not a number -/

/-- Whether the text is the word for what is not a number, in any case and with any sign. -/
def spellsNaN : List Char → Bool
  | '-' :: cs => isWord "nan" cs
  | '+' :: cs => isWord "nan" cs
  | cs => isWord "nan" cs

theorem isNaN_ofMagnitude {z : Bool} {m : Nat} (h : m ≤ F.infinity) :
    (ofMagnitude z m : Fp F).isNaN = false := by
  unfold isNaN
  rw [decide_eq_false_iff_not, Nat.not_lt]
  exact Nat.le_trans (Nat.mod_le m _) h

/-- No rational is rounded to what is not a number. -/
theorem isNaN_ofRat (z : Bool) (q : Rat) : (ofRat z q : Fp F).isNaN = false := by
  unfold ofRat
  split
  next => exact isNaN_ofMagnitude (Nat.zero_le _)
  next => exact isNaN_ofMagnitude (Nat.min_le_left _ _)

/-- A decimal reads as a number or as an infinity. -/
theorem isNaN_ofDecimal (z : Bool) (d : DecimalNotation) :
    (ofDecimal z d : Fp F).isNaN = false := by
  unfold ofDecimal
  dsimp only
  split
  next => exact isNaN_ofMagnitude (Nat.zero_le _)
  next =>
    split
    next => exact isNaN_ofMagnitude (Nat.le_refl _)
    next =>
      split
      next => exact isNaN_ofMagnitude (Nat.zero_le _)
      next => exact isNaN_ofRat _ _

theorem any_isNaN_readUnsigned (z : Bool) (cs : List Char) :
    (readUnsigned z cs : Option Double).any isNaN = isWord "nan" cs := by
  unfold readUnsigned
  split
  next infinity =>
    have other : isWord "nan" cs = false := by
      unfold isWord at infinity ⊢
      rw [Bool.or_eq_true, decide_eq_true_iff, decide_eq_true_iff] at infinity
      rcases infinity with short | long
      · rw [short]
        decide
      · rw [long]
        decide
    rw [other]
    exact isNaN_ofMagnitude (Nat.le_refl _)
  next =>
    split
    next nan =>
      rw [nan]
      cases z with
      | false => decide +kernel
      | true => decide +kernel
    next decimal =>
      rw [Bool.eq_false_iff.mpr decimal]
      cases DecimalNotation.read cs with
      | none => rfl
      | some d => exact isNaN_ofDecimal z d

/-- A text reads as something that is not a number exactly if it is the word for that. -/
theorem any_isNaN_read? (cs : List Char) :
    (read? cs : Option Double).any isNaN = spellsNaN cs := by
  fun_cases spellsNaN cs with
  | case1 cs => exact any_isNaN_readUnsigned true cs
  | case2 cs => exact any_isNaN_readUnsigned false cs
  | case3 cs noMinus noPlus =>
    unfold read?
    split
    next => exact absurd rfl (noMinus _)
    next => exact absurd rfl (noPlus _)
    next => exact any_isNaN_readUnsigned false _

/-- A number is equal to itself unless it is not a number. -/
theorem numEq_self (x : Fp F) : x.numEq x = !x.isNaN := by
  unfold numEq
  rw [beq_self_eq_true, Bool.and_true, Bool.and_self]

end Fp

open Fp

variable {vars vars' : Variables} {name other : String}

/-! ## Comparing -/

theorem valueOf_congr (h : vars.find? name = vars'.find? name) :
    valueOf vars name = valueOf vars' name := by
  unfold valueOf
  rw [h]

/-- A comparison looks at the one variable only. -/
theorem holds_congr (h : vars.find? name = vars'.find? name) (op text : String) :
    holds vars name op text = holds vars' name op text := by
  unfold holds
  rw [valueOf_congr h]

/-- Two equal texts compare as equal unless they read as what is not a number, and as unequal
exactly then. -/
theorem holds_valueOf (vars : Variables) (name : String) :
    holds vars name "==" (valueOf vars name) = !spellsNaN (valueOf vars name).toList ∧
      holds vars name "!=" (valueOf vars name) = spellsNaN (valueOf vars name).toList := by
  unfold holds number?
  rw [← any_isNaN_read?]
  cases reads : (read? (valueOf vars name).toList : Option Double) with
  | none => simp [reads, compareTexts]
  | some x => simp [reads, compareNumbers, numEq_self]

/-! ## Assigning -/

/-- An assignment writes its own variable and no other. -/
theorem find?_assign (vars : Variables) (name op text key : String) :
    (assign vars name op text).find? key =
      if isVariable name = true ∧ key = name then
        (assigned (valueOf vars name) op text).or (vars.find? key)
      else vars.find? key := by
  unfold assign
  split
  next sigil =>
    cases assigned (valueOf vars name) op text with
    | none => simp
    | some value => simp [Table.find?_insert, sigil]
  next literal => simp [literal]

/-- A variable that is assigned to has the value. -/
theorem find?_assign_self (sigil : isVariable name = true) (vars : Variables) (value : String) :
    (assign vars name "=" value).find? name = some value := by
  rw [find?_assign, if_pos ⟨sigil, rfl⟩]
  rfl

/-- Assigning to one variable leaves the others. -/
theorem find?_assign_other (distinct : other ≠ name) (vars : Variables) (op text : String) :
    (assign vars name op text).find? other = vars.find? other := by
  rw [find?_assign, if_neg fun same => distinct same.2]

/-- A variable that was given a text compares as equal to it, and not as unequal, exactly if the
text is not the word for what is not a number. Every other name compares as before, and what is
assigned to it then changes every variable as it would have before, except for the one that was
given the text, which keeps it. -/
theorem assigned_equals_iff (sigil : isVariable name = true) (vars : Variables)
    (value : String) :
    let after := assign vars name "=" value
    (holds after name "==" value = true ↔ spellsNaN value.toList = false) ∧
      (holds after name "!=" value = false ↔ spellsNaN value.toList = false) ∧
      ∀ other, other ≠ name → ∀ op text,
        holds after other op text = holds vars other op text ∧
        (assign after other op text).find? name = some value ∧
        ∀ key, key ≠ name →
          (assign after other op text).find? key = (assign vars other op text).find? key := by
  intro after
  have given : after.find? name = some value := find?_assign_self sigil vars value
  have current : valueOf after name = value := by
    unfold valueOf
    rw [if_pos sigil, given, Option.getD_some]
  have compared := holds_valueOf after name
  rw [current] at compared
  obtain ⟨equal, unequal⟩ := compared
  refine ⟨by rw [equal, Bool.not_eq_true'], by rw [unequal], fun other distinct op text => ?_⟩
  have untouched : after.find? other = vars.find? other := find?_assign_other distinct vars _ _
  refine ⟨holds_congr untouched op text, ?_, fun key elsewhere => ?_⟩
  · rw [find?_assign_other distinct.symm, given]
  · have kept : after.find? key = vars.find? key := find?_assign_other elsewhere vars _ _
    rw [find?_assign after, find?_assign vars other, valueOf_congr untouched, kept]

/-- A number with a sign and zeros that do not matter, beside another variable. -/
theorem assigned_equals_iff_padded :
    let vars := assign .empty "$mood" "=" "calm"
    let after := assign vars "$hp" "=" "+007.50"
    isVariable "$hp" = true ∧ spellsNaN "+007.50".toList = false ∧
      holds after "$hp" "==" "+007.50" = true ∧ holds after "$hp" "!=" "+007.50" = false ∧
      holds after "$mood" "==" "calm" = holds vars "$mood" "==" "calm" ∧
      (assign after "$mood" "+=" "er").find? "$mood" =
        (assign vars "$mood" "+=" "er").find? "$mood" := by
  intro vars after
  have number : spellsNaN "+007.50".toList = false := by decide +kernel
  have sigil : isVariable "$hp" = true := rfl
  obtain ⟨equal, unequal, others⟩ := assigned_equals_iff sigil vars "+007.50"
  refine ⟨sigil, number, equal.mpr number, unequal.mpr number, ?_, ?_⟩
  · exact (others "$mood" (by decide) "==" "calm").1
  · exact (others "$mood" (by decide) "+=" "er").2.2 "$mood" (by decide)

/-- A variable that was given the word for what is not a number compares as unequal to it. -/
theorem nan_unequal_to_itself :
    let after := assign .empty "$name" "=" "Nan"
    isVariable "$name" = true ∧ after.find? "$name" = some "Nan" ∧
      holds after "$name" "==" "Nan" = false ∧ holds after "$name" "!=" "Nan" = true := by
  decide +kernel

end VisualNovel
