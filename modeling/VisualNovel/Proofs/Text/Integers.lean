import VisualNovel.Text.Integer

/-!
# Reading integers as they are written

A number is written as its decimal digits, behind a minus sign if it is negative. Reading goes
digit by digit and refuses to leave the range, which it does not for a number of the range: what
is read of a number's digits is never larger than the number (`le_ofDigitChars`).

> `readInt_toString`: an integer of a range is read from its text.
-/

namespace VisualNovel.Text

variable {overflow : IntError} {below above bound : Nat} {cs : List Char}

theorem le_ofDigitChars (cs : List Char) (n : Nat) : n ≤ Nat.ofDigitChars 10 cs n := by
  induction cs generalizing n with
  | nil => exact Nat.le_refl n
  | cons c cs ih =>
    rw [Nat.ofDigitChars_cons]
    calc n ≤ 10 * n + (c.toNat - '0'.toNat) := by omega
      _ ≤ Nat.ofDigitChars 10 cs (10 * n + (c.toNat - '0'.toNat)) := ih _

/-- Digits are read to the end if the number they make is in range. -/
theorem readDigits_eq (digits : ∀ c ∈ cs, c.isDigit) {n : Nat}
    (fits : Nat.ofDigitChars 10 cs n ≤ bound) :
    readDigits overflow bound n cs = .ok (Nat.ofDigitChars 10 cs n) := by
  induction cs generalizing n with
  | nil => rfl
  | cons c cs ih =>
    obtain ⟨digit, others⟩ := List.forall_mem_cons.mp digits
    rw [Nat.ofDigitChars_cons] at fits ⊢
    rw [readDigits, if_pos digit]
    exact (if_pos (Nat.le_trans (le_ofDigitChars cs _) fits)).trans (ih others fits)

/-- Digits without a sign are read as they are. -/
theorem readInt_of_digits (ne : cs ≠ []) (digits : ∀ c ∈ cs, c.isDigit) :
    readInt below above cs = (readDigits .tooLarge above 0 cs).map Int.ofNat := by
  unfold readInt
  -- A sign is no digit, so that no other case than the first two and the last is left.
  split
  next => exact absurd rfl ne
  next c => rw [if_pos (digits c List.mem_cons_self)]
  next cs _ => exact absurd (digits '+' List.mem_cons_self) (by decide)
  next cs _ => exact absurd (digits '-' List.mem_cons_self) (by decide)
  next => rfl

/-- Digits behind a minus sign are those of a negative number, if there are any. -/
theorem readInt_minus (ne : cs ≠ []) (signed : 0 < below) :
    readInt below above ('-' :: cs) =
      (readDigits .tooSmall below 0 cs).map fun n => -(n : Int) := by
  obtain ⟨d, ds, rfl⟩ := List.exists_cons_of_ne_nil ne
  show (if below = 0 then _ else _) = _
  rw [if_neg (Nat.ne_of_gt signed)]

theorem isDigit_toDigits (n : Nat) : ∀ c ∈ Nat.toDigits 10 n, c.isDigit :=
  fun _ hc => Nat.isDigit_of_mem_toDigits (by decide) (by decide) hc

theorem readDigits_toDigits {n : Nat} (h : n ≤ bound) :
    readDigits overflow bound 0 (Nat.toDigits 10 n) = .ok n := by
  have value : Nat.ofDigitChars 10 (Nat.toDigits 10 n) 0 = n := Nat.ofDigitChars_ten_toDigits
  rw [readDigits_eq (isDigit_toDigits n) (value.symm ▸ h), value]

/-- An integer of a range is read from its text. -/
theorem readInt_toString (signed : 0 < below) {i : Int} (low : -below ≤ i) (high : i ≤ above) :
    readInt below above (toString i).toList = .ok i := by
  cases i with
  | ofNat n =>
    have text : (toString (Int.ofNat n)).toList = Nat.toDigits 10 n := Nat.toList_repr
    rw [text, readInt_of_digits Nat.toDigits_ne_nil (isDigit_toDigits n),
      readDigits_toDigits (Int.ofNat_le.mp high)]
    rfl
  | negSucc n =>
    have text : (toString (Int.negSucc n)).toList = '-' :: Nat.toDigits 10 (n + 1) := by
      show ("-" ++ (n + 1).repr).toList = _
      rw [String.toList_append, Nat.toList_repr]
      rfl
    rw [text, readInt_minus Nat.toDigits_ne_nil signed, readDigits_toDigits (by omega)]
    rfl

/-- A 32-bit integer is read from its text. -/
theorem readInt32?_toString (x : Int32) : readInt32? (toString x.toInt).toList = some x := by
  have low : -((maxInt32 + 1 : Nat) : Int) ≤ x.toInt := x.le_toInt
  have high : x.toInt ≤ (maxInt32 : Nat) := Int.lt_add_one_iff.mp x.toInt_lt
  rw [readInt32?, readInt_toString (by decide) low high]
  exact congrArg some (Int32.ofInt_toInt x)

end VisualNovel.Text
