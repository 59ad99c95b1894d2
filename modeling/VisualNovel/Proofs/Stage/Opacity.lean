import VisualNovel.Stage.Task
import VisualNovel.Proofs.Number.Rounding

/-!
# The opacity of the cover

The cover is drawn over the stage with an opacity that fractions of counts are added to
and taken from. Rounding keeps the order, so none of this leads beyond one, and a cover
that is not fainter than a full one is full.

> `Fp.AtMostOne.eq_one`: of the numbers up to one, only one is not less than one.

> `Slot.coverAlpha_atMostOne`, `Fp.AtMostOne.lerp_zero`: what a crossfade and an opening
> fade make of the opacity is at most one.
-/

namespace VisualNovel

namespace Fp

variable {x t : Single} {q : ℚ}

/-- A number between minus one and one. -/
def AtMostOne (x : Single) : Prop := x.magnitude ≤ (1 : Single).magnitude

/-- Rounding does not lead beyond one. -/
theorem atMostOne_ofRat (z : Bool) (h : |q| ≤ 1) : AtMostOne (ofRat z q) := by
  refine magnitude_ofRat_le z false ?_
  rw [Nat.cast_one, Int.cast_one, abs_one]
  exact h

theorem atMostOne_zero : AtMostOne 0 := by
  unfold AtMostOne
  decide +kernel

namespace AtMostOne

theorem isFinite (h : AtMostOne x) : x.isFinite = true := by
  have one : (1 : Single).magnitude < FloatFormat.single.infinity := by decide +kernel
  unfold AtMostOne at h
  unfold Fp.isFinite
  rw [decide_eq_true_eq]
  omega

theorem abs_toRat_le_one (h : AtMostOne x) : |x.toRat| ≤ 1 := by
  have one : |(1 : Single).toRat| = 1 := by decide +kernel
  rw [← one]
  exact abs_toRat_le h

/-- What is not less than one is one. -/
theorem eq_one (h : AtMostOne x) (full : x.less 1 = false) : x = 1 := by
  have number := isNaN_of_isFinite h.isFinite
  have one : (1 : Single).isNaN = false := by decide +kernel
  have positive : (1 : Single).orderKey = (1 : Single).magnitude := by decide +kernel
  have above : ((1 : Single).magnitude : Int) ≤ x.orderKey := by
    unfold less at full
    rw [number, one, positive] at full
    simpa using full
  have sign : x.negative = false := by
    by_contra negative
    have none : 0 < (1 : Single).magnitude := by decide +kernel
    unfold orderKey at above
    rw [if_pos (by simpa using negative)] at above
    omega
  have same : x.magnitude = (1 : Single).magnitude := by
    unfold orderKey at above
    rw [sign, if_neg Bool.false_ne_true] at above
    exact Nat.le_antisymm h (by exact_mod_cast above)
  have shape : (1 : Single) = ⟨false, (1 : Single).magnitude, (1 : Single).magnitude_lt⟩ := by
    decide +kernel
  obtain ⟨negative, magnitude, bound⟩ := x
  dsimp only at sign same
  subst sign same
  exact shape.symm

/-- What is brought to nothing stays at most one on its way. -/
theorem lerp_zero (h : AtMostOne x) (ht : AtMostOne t) (positive : 0 ≤ t.toRat) :
    AtMostOne (lerp x 0 t) := by
  have turn : 0 - x = ofRat ((0 : Single).negative && !x.negative) (-x.toRat) := by
    have zero : (0 : Single).toRat = 0 := toRat_zero false
    rw [sub_of_isFinite atMostOne_zero.isFinite h.isFinite, zero, zero_sub]
  have back : AtMostOne (0 - x) := by
    rw [turn]
    exact atMostOne_ofRat _ ((abs_neg _).trans_le h.abs_toRat_le_one)
  have part := mul_of_isFinite back.isFinite ht.isFinite
  have some : AtMostOne ((0 - x) * t) := by
    rw [part]
    refine atMostOne_ofRat _ ?_
    rw [abs_mul]
    exact mul_le_one₀ back.abs_toRat_le_one (abs_nonneg _) ht.abs_toRat_le_one
  have hx := abs_le.mp h.abs_toRat_le_one
  have hs := abs_le.mp some.abs_toRat_le_one
  show AtMostOne (x + (0 - x) * t)
  rw [add_of_isFinite h.isFinite some.isFinite]
  refine atMostOne_ofRat _ (abs_le.mpr ?_)
  -- What is added has the other sign, so the sum is between the two.
  rcases le_total 0 x.toRat with above | below
  · have turned : (0 - x).toRat ≤ 0 := by
      rw [turn]
      exact toRat_ofRat_nonpos _ (neg_nonpos.mpr above)
    have off : ((0 - x) * t).toRat ≤ 0 := by
      rw [part]
      exact toRat_ofRat_nonpos _ (mul_nonpos_of_nonpos_of_nonneg turned positive)
    constructor <;> linarith [hx.2, hs.1]
  · have turned : 0 ≤ (0 - x).toRat := by
      rw [turn]
      exact toRat_ofRat_nonneg _ (neg_nonneg.mpr below)
    have off : 0 ≤ ((0 - x) * t).toRat := by
      rw [part]
      exact toRat_ofRat_nonneg _ (mul_nonneg turned positive)
    constructor <;> linarith [hx.1, hs.2]

end AtMostOne

/-- A count over one that is no less. -/
theorem fraction_atMostOne {n m : Nat} (h : n ≤ m) (hm : IsCount m) :
    AtMostOne (Slot.fraction n m) ∧ 0 ≤ (Slot.fraction n m).toRat := by
  have small : (ofInt n : Single).magnitude ≤ (ofInt m : Single).magnitude := magnitude_ofInt_le h
  have finite : (ofInt n : Single).isFinite = true := by
    have := hm.isFinite
    unfold Fp.isFinite at this ⊢
    rw [decide_eq_true_eq] at this ⊢
    omega
  have hn : 0 ≤ (ofInt n : Single).toRat := toRat_nonneg (negative_ofInt n)
  have hd : 1 ≤ (ofInt m : Single).toRat := hm.one_le_toRat
  have below : (ofInt n : Single).toRat ≤ (ofInt m : Single).toRat := by
    have := abs_toRat_le small
    rwa [abs_of_nonneg hn, abs_of_nonneg (by linarith)] at this
  have quotient : 0 ≤ (ofInt n : Single).toRat / (ofInt m : Single).toRat :=
    div_nonneg hn (by linarith)
  unfold Slot.fraction
  rw [div_of_isFinite finite hm.isFinite hm.isZero]
  refine ⟨atMostOne_ofRat _ ?_, toRat_ofRat_nonneg _ quotient⟩
  rw [abs_of_nonneg quotient]
  exact div_le_one_of_le₀ below (by linarith)

end Fp

/-- The opacity that a crossfade gives the cover. -/
theorem Slot.coverAlpha_atMostOne {step half : Nat} (hh : Fp.IsCount half)
    (h : step ≤ 2 * half) : Fp.AtMostOne (coverAlpha step half) := by
  unfold coverAlpha
  split
  next covering => exact (Fp.fraction_atMostOne covering hh).1
  next =>
    obtain ⟨top, positive⟩ := Fp.fraction_atMostOne (show step - half ≤ half by omega) hh
    have one : Fp.AtMostOne 1 := Nat.le_refl _
    have value : (1 : Single).toRat = 1 := by decide +kernel
    have htop := abs_le.mp top.abs_toRat_le_one
    rw [Fp.sub_of_isFinite one.isFinite top.isFinite, value]
    refine Fp.atMostOne_ofRat _ (abs_le.mpr ?_)
    constructor <;> linarith [htop.1, htop.2]

end VisualNovel
