import VisualNovel.Number.Arith
import Mathlib.Algebra.Order.Field.Power
import Mathlib.Algebra.Order.Field.Rat
import Mathlib.Tactic.FieldSimp
import Mathlib.Tactic.Linarith
import Mathlib.Tactic.Positivity

/-!
# Rounding keeps the order

A ratio is rounded on the grid of its exponent, and a greater ratio may have a coarser
grid. Where the grids differ, a power of two lies between the two results; where they
are the same, so is the order of the significands.

> `roundMagnitude_mono`: the magnitude nearest to a ratio grows with the ratio.

> `magnitude_ofRat_le`: so does the magnitude of the number nearest to a rational.

> `abs_toRat_le`: and the value grows with the magnitude.
-/

namespace VisualNovel

theorem twoPow_add (m n : Nat) : twoPow (m + n) = twoPow m * twoPow n := Nat.pow_add 2 m n

/-- From zero on the powers of two are natural numbers. -/
theorem zpow_eq_twoPow {k : Int} (h : 0 ≤ k) : (2 : ℚ) ^ k = (twoPow k.toNat : ℚ) := by
  obtain ⟨n, rfl⟩ := Int.eq_ofNat_of_zero_le h
  rw [zpow_natCast, Int.toNat_natCast]
  exact (Nat.cast_pow 2 n).symm

/-- Below zero they are their inverses. -/
theorem zpow_eq_inv_twoPow {k : Int} (h : ¬0 ≤ k) :
    (2 : ℚ) ^ k = ((twoPow (-k).toNat : ℚ))⁻¹ := by
  rw [← zpow_eq_twoPow (show 0 ≤ -k by omega), zpow_neg, inv_inv]

theorem two_zpow_pos (k : Int) : (0 : ℚ) < 2 ^ k := zpow_pos two_pos k

theorem cast_twoPow_pos (n : Nat) : (0 : ℚ) < twoPow n := Nat.cast_pos.mpr (twoPow_pos n)

namespace Fp

variable {F : FloatFormat} {n d n' d' : Nat}

/-! ## Rounded quotients -/

/-- A quotient is rounded down or to the next number. -/
theorem divHalfEven_bounds (a b : Nat) :
    a / b ≤ divHalfEven a b ∧ divHalfEven a b ≤ a / b + 1 := by
  unfold divHalfEven
  dsimp only
  split
  next => omega
  next =>
    split
    next => omega
    next => omega

/-- A greater quotient is rounded to no less. -/
theorem divHalfEven_mono {a b a' b' : Nat} (hb : 0 < b) (hb' : 0 < b')
    (h : (a : ℚ) / b ≤ a' / b') : divHalfEven a b ≤ divHalfEven a' b' := by
  have cross : a * b' ≤ a' * b := by
    rw [div_le_div_iff₀ (Nat.cast_pos.mpr hb) (Nat.cast_pos.mpr hb')] at h
    exact_mod_cast h
  have whole : a / b ≤ a' / b' := by
    rw [← Nat.mul_div_mul_right a b hb', ← Nat.mul_div_mul_right a' b' hb, Nat.mul_comm b' b]
    exact Nat.div_le_div_right cross
  rcases Nat.lt_or_eq_of_le whole with lt | eq
  · have := (divHalfEven_bounds a b).2
    have := (divHalfEven_bounds a' b').1
    omega
  · -- With equal integer parts the remainders decide.
    have left : a % b * b' ≤ a' % b' * b := by
      have ha := Nat.div_add_mod a b
      have ha' := Nat.div_add_mod a' b'
      rw [← ha, ← ha', ← eq] at cross
      nlinarith
    have above : b < 2 * (a % b) → b' < 2 * (a' % b') := fun hr => by
      by_contra hr'
      nlinarith
    have half : b ≤ 2 * (a % b) → b' ≤ 2 * (a' % b') := fun hr => by
      by_contra hr'
      nlinarith
    unfold divHalfEven
    dsimp only
    rw [← eq]
    split_ifs
    all_goals omega

/-- A quotient below a number is rounded to no more than that. -/
theorem divHalfEven_le {a b N : Nat} (hb : 0 < b) (h : (a : ℚ) / b < N) :
    divHalfEven a b ≤ N := by
  rw [div_lt_iff₀ (Nat.cast_pos.mpr hb)] at h
  have : a / b < N := (Nat.div_lt_iff_lt_mul hb).mpr (by exact_mod_cast h)
  have := (divHalfEven_bounds a b).2
  omega

/-- A quotient from a number on is rounded to no less than that. -/
theorem le_divHalfEven {a b N : Nat} (hb : 0 < b) (h : (N : ℚ) ≤ a / b) :
    N ≤ divHalfEven a b := by
  rw [le_div_iff₀ (Nat.cast_pos.mpr hb)] at h
  have : N ≤ a / b := (Nat.le_div_iff_mul_le hb).mpr (by exact_mod_cast h)
  exact Nat.le_trans this (divHalfEven_bounds a b).1

/-! ## The exponent of a ratio -/

/-- Whether a ratio reaches a power of two is asked without dividing. -/
theorem reaches_iff (hd : 0 < d) {k : Int} (hk : 0 ≤ k) :
    d * twoPow k.toNat ≤ n ↔ (2 : ℚ) ^ k ≤ n / d := by
  rw [le_div_iff₀ (Nat.cast_pos.mpr hd), zpow_eq_twoPow hk, mul_comm]
  exact_mod_cast Iff.rfl

@[inherit_doc reaches_iff]
theorem reaches_iff_of_neg (hd : 0 < d) {k : Int} (hk : ¬0 ≤ k) :
    d ≤ n * twoPow (-k).toNat ↔ (2 : ℚ) ^ k ≤ n / d := by
  rw [le_div_iff₀ (Nat.cast_pos.mpr hd), zpow_eq_inv_twoPow hk,
    inv_mul_le_iff₀ (cast_twoPow_pos _), mul_comm]
  exact_mod_cast Iff.rfl

/-- The logarithm of a number tells between which powers of two it is. -/
theorem log2_bounds (hn : 0 < n) :
    (2 : ℚ) ^ (n.log2 : Int) ≤ n ∧ (n : ℚ) < 2 ^ ((n.log2 : Int) + 1) := by
  have low := Nat.log2_self_le (Nat.ne_of_gt hn)
  have high := Nat.lt_log2_self (n := n)
  refine ⟨?_, ?_⟩
  · rw [zpow_natCast]
    exact_mod_cast low
  · rw [← Nat.cast_succ, zpow_natCast]
    exact_mod_cast high

/-- A ratio lies between the power of two with its logarithm and the next one. -/
theorem ratioLog2_bounds (hn : 0 < n) (hd : 0 < d) :
    (2 : ℚ) ^ ratioLog2 n d ≤ n / d ∧ (n : ℚ) / d < 2 ^ (ratioLog2 n d + 1) := by
  have pos : (0 : ℚ) < d := Nat.cast_pos.mpr hd
  obtain ⟨lowN, highN⟩ := log2_bounds hn
  obtain ⟨lowD, highD⟩ := log2_bounds hd
  -- The difference of the logarithms is the exponent, or one too much.
  have same : ratioLog2 n d = if (2 : ℚ) ^ ((n.log2 : Int) - d.log2) ≤ n / d
      then (n.log2 : Int) - d.log2 else (n.log2 : Int) - d.log2 - 1 := by
    unfold ratioLog2
    dsimp only
    split
    next hk => simp only [reaches_iff hd hk]
    next hk => simp only [reaches_iff_of_neg hd hk]
  rw [same]
  split
  next reached =>
    refine ⟨reached, ?_⟩
    rw [div_lt_iff₀ pos]
    calc (n : ℚ) < 2 ^ ((n.log2 : Int) + 1) := highN
      _ = 2 ^ ((n.log2 : Int) - d.log2 + 1) * 2 ^ (d.log2 : Int) := by
        rw [← zpow_add₀ two_ne_zero]
        congr 1
        omega
      _ ≤ 2 ^ ((n.log2 : Int) - d.log2 + 1) * d :=
        mul_le_mul_of_nonneg_left lowD (two_zpow_pos _).le
  next reached =>
    refine ⟨?_, by rw [sub_add_cancel]; exact not_le.mp reached⟩
    rw [le_div_iff₀ pos]
    calc (2 : ℚ) ^ ((n.log2 : Int) - d.log2 - 1) * d
        ≤ 2 ^ ((n.log2 : Int) - d.log2 - 1) * 2 ^ ((d.log2 : Int) + 1) :=
          mul_le_mul_of_nonneg_left highD.le (two_zpow_pos _).le
      _ = 2 ^ (n.log2 : Int) := by
        rw [← zpow_add₀ two_ne_zero]
        congr 1
        omega
      _ ≤ n := lowN

/-- A greater ratio has no lesser exponent. -/
theorem ratioLog2_mono (hn : 0 < n) (hd : 0 < d) (hn' : 0 < n') (hd' : 0 < d')
    (h : (n : ℚ) / d ≤ n' / d') : ratioLog2 n d ≤ ratioLog2 n' d' := by
  have below : (2 : ℚ) ^ ratioLog2 n d < 2 ^ (ratioLog2 n' d' + 1) :=
    lt_of_le_of_lt (ratioLog2_bounds hn hd).1 (lt_of_le_of_lt h (ratioLog2_bounds hn' hd').2)
  have := (zpow_lt_zpow_iff_right₀ one_lt_two).mp below
  omega

/-! ## Magnitudes -/

/-- A ratio rounded to a multiple of two to the power `k`, counted in multiples. -/
def onGrid (k : Int) (n d : Nat) : Nat :=
  if 0 ≤ k then divHalfEven n (d * twoPow k.toNat) else divHalfEven (n * twoPow (-k).toNat) d

/-- A ratio on a grid is a quotient that is rounded. -/
theorem onGrid_eq (k : Int) (n : Nat) (hd : 0 < d) :
    ∃ a b : Nat, 0 < b ∧ onGrid k n d = divHalfEven a b ∧ (a : ℚ) / b = n / d / 2 ^ k := by
  unfold onGrid
  split
  next hk =>
    refine ⟨n, d * twoPow k.toNat, Nat.mul_pos hd (twoPow_pos _), rfl, ?_⟩
    rw [zpow_eq_twoPow hk, Nat.cast_mul, div_div]
  next hk =>
    refine ⟨n * twoPow (-k).toNat, d, hd, rfl, ?_⟩
    rw [zpow_eq_inv_twoPow hk, Nat.cast_mul, div_inv_eq_mul, div_mul_eq_mul_div]

/-- On one grid a greater ratio is rounded to no less. -/
theorem onGrid_mono (k : Int) (hd : 0 < d) (hd' : 0 < d') (h : (n : ℚ) / d ≤ n' / d') :
    onGrid k n d ≤ onGrid k n' d' := by
  obtain ⟨a, b, hb, rounded, ratio⟩ := onGrid_eq k n hd
  obtain ⟨a', b', hb', rounded', ratio'⟩ := onGrid_eq k n' hd'
  rw [rounded, rounded']
  refine divHalfEven_mono hb hb' ?_
  rw [ratio, ratio']
  exact div_le_div_of_nonneg_right h (two_zpow_pos k).le

/-- Below a power of two, a ratio is rounded to no more than that. -/
theorem onGrid_le {k : Int} (hd : 0 < d) {j : Nat} (h : (n : ℚ) / d < 2 ^ (k + j)) :
    onGrid k n d ≤ twoPow j := by
  obtain ⟨a, b, hb, rounded, ratio⟩ := onGrid_eq k n hd
  rw [rounded]
  refine divHalfEven_le hb ?_
  rw [ratio, div_lt_iff₀ (two_zpow_pos k), mul_comm]
  calc (n : ℚ) / d < 2 ^ (k + j) := h
    _ = 2 ^ k * twoPow j := by
      rw [zpow_add₀ two_ne_zero, zpow_eq_twoPow (Int.natCast_nonneg j)]
      rfl

/-- From a power of two on, a ratio is rounded to no less than that. -/
theorem le_onGrid {k : Int} (hd : 0 < d) {j : Nat} (h : (2 : ℚ) ^ (k + j) ≤ n / d) :
    twoPow j ≤ onGrid k n d := by
  obtain ⟨a, b, hb, rounded, ratio⟩ := onGrid_eq k n hd
  rw [rounded]
  refine le_divHalfEven hb ?_
  rw [ratio, le_div_iff₀ (two_zpow_pos k), mul_comm]
  calc 2 ^ k * (twoPow j : ℚ) = 2 ^ (k + j) := by
        rw [zpow_add₀ two_ne_zero, zpow_eq_twoPow (Int.natCast_nonneg j)]; rfl
    _ ≤ n / d := h

/-- The exponent of the grid a ratio is rounded on. -/
def gridExponent (F : FloatFormat) (n d : Nat) : Int :=
  max (ratioLog2 n d - F.fractionBits) F.minExponent

/-- The multiples are counted from where the exponent of the grid begins, up to infinity. -/
theorem roundMagnitude_eq (F : FloatFormat) (n d : Nat) :
    roundMagnitude F n d = min F.infinity
      ((gridExponent F n d - F.minExponent).toNat * twoPow F.fractionBits +
        onGrid (gridExponent F n d) n d) := rfl

/-- The magnitude nearest to a ratio grows with the ratio. -/
theorem roundMagnitude_mono (F : FloatFormat) (hn : 0 < n) (hd : 0 < d) (hn' : 0 < n')
    (hd' : 0 < d') (h : (n : ℚ) / d ≤ n' / d') :
    roundMagnitude F n d ≤ roundMagnitude F n' d' := by
  have logs := ratioLog2_mono hn hd hn' hd' h
  rw [roundMagnitude_eq, roundMagnitude_eq]
  refine min_le_min_left _ ?_
  have grids : gridExponent F n d ≤ gridExponent F n' d' :=
    max_le_max_right _ (Int.sub_le_sub_right logs _)
  rcases grids.lt_or_eq with finer | same
  · -- On the coarser grid the greater ratio is at least a leading one.
    have top : gridExponent F n' d' = ratioLog2 n' d' - F.fractionBits := by
      unfold gridExponent at finer ⊢
      omega
    have least : F.minExponent ≤ gridExponent F n d := le_max_right _ _
    have lower : onGrid (gridExponent F n d) n d ≤ twoPow (F.fractionBits + 1) := by
      refine onGrid_le hd (lt_of_lt_of_le (ratioLog2_bounds hn hd).2 ?_)
      refine zpow_le_zpow_right₀ one_le_two ?_
      unfold gridExponent
      omega
    have upper : twoPow F.fractionBits ≤ onGrid (gridExponent F n' d') n' d' := by
      refine le_onGrid hd' (le_trans (le_of_eq ?_) (ratioLog2_bounds hn' hd').1)
      rw [top, sub_add_cancel]
    rw [twoPow_succ] at lower
    have steps : (gridExponent F n d - F.minExponent).toNat + 1 ≤
        (gridExponent F n' d' - F.minExponent).toNat := by omega
    have := Nat.mul_le_mul_right (twoPow F.fractionBits) steps
    rw [Nat.add_mul, Nat.one_mul] at this
    omega
  · rw [same]
    exact Nat.add_le_add_left (onGrid_mono _ hd hd' h) _

/-! ## Rounded rationals -/

/-- Infinity is a magnitude. -/
theorem infinity_lt (F : FloatFormat) : F.infinity < twoPow F.magnitudeBits := by
  unfold FloatFormat.infinity FloatFormat.magnitudeBits
  rw [twoPow_add]
  have := twoPow_pos F.exponentBits
  exact Nat.mul_lt_mul_of_pos_right (by omega) (twoPow_pos _)

/-- The absolute value of a rational is the ratio of two natural numbers. -/
theorem abs_eq_natAbs_div (q : ℚ) : |q| = (q.num.natAbs : ℚ) / q.den := by
  conv_lhs => rw [← Rat.num_div_den q]
  rw [abs_div, Nat.abs_cast, Nat.cast_natAbs, Int.cast_abs]

/-- A rational is rounded as the ratio of its absolute value. -/
theorem magnitude_ofRat (z : Bool) {q : ℚ} (h : q ≠ 0) :
    (ofRat z q : Fp F).magnitude = roundMagnitude F q.num.natAbs q.den := by
  unfold ofRat
  rw [if_neg h]
  exact Nat.mod_eq_of_lt (Nat.lt_of_le_of_lt (Nat.min_le_left _ _) (infinity_lt F))

/-- The magnitude of the nearest number grows with the absolute value. -/
theorem magnitude_ofRat_le (z z' : Bool) {p q : ℚ} (h : |p| ≤ |q|) :
    (ofRat z p : Fp F).magnitude ≤ (ofRat z' q : Fp F).magnitude := by
  by_cases hp : p = 0
  · subst hp
    exact Nat.le_trans (Nat.le_of_eq (Nat.zero_mod _)) (Nat.zero_le _)
  · have hq : q ≠ 0 := by
      rintro rfl
      rw [abs_zero] at h
      exact hp (abs_nonpos_iff.mp h)
    rw [magnitude_ofRat z hp, magnitude_ofRat z' hq]
    refine roundMagnitude_mono F (Int.natAbs_pos.mpr (Rat.num_ne_zero.mpr hp)) p.den_pos
      (Int.natAbs_pos.mpr (Rat.num_ne_zero.mpr hq)) q.den_pos ?_
    rwa [← abs_eq_natAbs_div, ← abs_eq_natAbs_div]

/-! ## Values -/

/-- The value that a magnitude stands for. -/
def magnitudeValue (F : FloatFormat) (magnitude : Nat) : ℚ :=
  (decompose F magnitude).1 * 2 ^ (decompose F magnitude).2

/-- Scaling by a power of two is exact. -/
theorem scaled_eq (m k : Int) : scaled m k = m * 2 ^ k := by
  unfold scaled
  split
  next hk => rw [zpow_eq_twoPow hk, Int.cast_mul, Int.cast_natCast]
  next hk => rw [zpow_eq_inv_twoPow hk, Rat.mkRat_eq_div, div_eq_mul_inv]

/-- The value of a number is that of its magnitude with its sign. -/
theorem toRat_eq (x : Fp F) :
    x.toRat = if x.negative then -magnitudeValue F x.magnitude
      else magnitudeValue F x.magnitude := by
  unfold toRat magnitudeValue
  dsimp only
  rw [scaled_eq]
  split
  next => rw [Int.cast_neg, Int.cast_natCast, neg_mul]
  next => rw [Int.cast_natCast]

theorem magnitudeValue_nonneg (F : FloatFormat) (m : Nat) : 0 ≤ magnitudeValue F m :=
  mul_nonneg (Nat.cast_nonneg _) (two_zpow_pos _).le

/-- The absolute value of a number is that of its magnitude. -/
theorem abs_toRat (x : Fp F) : |x.toRat| = magnitudeValue F x.magnitude := by
  rw [toRat_eq]
  split
  next => rw [abs_neg, abs_of_nonneg (magnitudeValue_nonneg F _)]
  next => exact abs_of_nonneg (magnitudeValue_nonneg F _)

/-- All values of an exponent field lie below the least one of the next field. -/
theorem magnitudeValue_lt (F : FloatFormat) (m : Nat) :
    magnitudeValue F m <
      2 ^ (F.minExponent + F.fractionBits + (m / twoPow F.fractionBits : Nat)) := by
  have fraction := Nat.mod_lt m (twoPow_pos F.fractionBits)
  have bits : (twoPow F.fractionBits : ℚ) = 2 ^ (F.fractionBits : Int) :=
    (zpow_eq_twoPow (Int.natCast_nonneg _)).symm
  unfold magnitudeValue decompose
  dsimp only
  split
  next hf =>
    rw [hf, Nat.cast_zero, add_zero, add_comm, zpow_add₀ two_ne_zero, ← bits]
    exact mul_lt_mul_of_pos_right (by exact_mod_cast fraction) (two_zpow_pos _)
  next =>
    calc ((m % twoPow F.fractionBits + twoPow F.fractionBits : Nat) : ℚ) *
          2 ^ (F.minExponent + (m / twoPow F.fractionBits : Nat) - 1)
        < (2 * twoPow F.fractionBits : Nat) *
          2 ^ (F.minExponent + (m / twoPow F.fractionBits : Nat) - 1) :=
          mul_lt_mul_of_pos_right (by exact_mod_cast (by omega)) (two_zpow_pos _)
      _ = 2 ^ (F.minExponent + F.fractionBits + (m / twoPow F.fractionBits : Nat)) := by
        rw [Nat.cast_mul, bits, Nat.cast_ofNat, ← zpow_one_add₀ two_ne_zero,
          ← zpow_add₀ two_ne_zero]
        congr 1
        omega

/-- The least value of an exponent field. -/
theorem le_magnitudeValue (F : FloatFormat) {m : Nat} (h : m / twoPow F.fractionBits ≠ 0) :
    2 ^ (F.minExponent + F.fractionBits + (m / twoPow F.fractionBits : Nat) - 1) ≤
      magnitudeValue F m := by
  have bits : (twoPow F.fractionBits : ℚ) = 2 ^ (F.fractionBits : Int) :=
    (zpow_eq_twoPow (Int.natCast_nonneg _)).symm
  unfold magnitudeValue decompose
  dsimp only
  rw [if_neg h]
  calc (2 : ℚ) ^ (F.minExponent + F.fractionBits + (m / twoPow F.fractionBits : Nat) - 1)
      = twoPow F.fractionBits * 2 ^ (F.minExponent + (m / twoPow F.fractionBits : Nat) - 1) := by
        rw [bits, ← zpow_add₀ two_ne_zero]
        congr 1
        omega
    _ ≤ (m % twoPow F.fractionBits + twoPow F.fractionBits : Nat) *
          2 ^ (F.minExponent + (m / twoPow F.fractionBits : Nat) - 1) :=
        mul_le_mul_of_nonneg_right (by exact_mod_cast (by omega)) (two_zpow_pos _).le

/-- The value of a magnitude grows with it. -/
theorem magnitudeValue_mono (F : FloatFormat) {m m' : Nat} (h : m ≤ m') :
    magnitudeValue F m ≤ magnitudeValue F m' := by
  have fields := Nat.div_le_div_right (c := twoPow F.fractionBits) h
  rcases Nat.lt_or_eq_of_le fields with lower | same
  · refine (magnitudeValue_lt F m).le.trans
      (le_trans ?_ (le_magnitudeValue F (Nat.ne_zero_of_lt lower)))
    refine zpow_le_zpow_right₀ one_le_two ?_
    have : ((m / twoPow F.fractionBits : Nat) : Int) + 1 ≤ (m' / twoPow F.fractionBits : Nat) :=
      Int.ofNat_le.mpr lower
    linarith
  · have fractions : m % twoPow F.fractionBits ≤ m' % twoPow F.fractionBits := by
      have hm := Nat.div_add_mod m (twoPow F.fractionBits)
      have hm' := Nat.div_add_mod m' (twoPow F.fractionBits)
      rw [same] at hm
      omega
    unfold magnitudeValue decompose
    dsimp only
    rw [same]
    split
    next => exact mul_le_mul_of_nonneg_right (by exact_mod_cast fractions) (two_zpow_pos _).le
    next =>
      exact mul_le_mul_of_nonneg_right (by exact_mod_cast (by omega)) (two_zpow_pos _).le

/-- The absolute value grows with the magnitude. -/
theorem abs_toRat_le {x y : Fp F} (h : x.magnitude ≤ y.magnitude) : |x.toRat| ≤ |y.toRat| := by
  rw [abs_toRat, abs_toRat]
  exact magnitudeValue_mono F h

/-! ## Finite numbers -/

theorem isNaN_of_isFinite {x : Fp F} (h : x.isFinite = true) : x.isNaN = false := by
  simp only [isFinite, isNaN, decide_eq_true_eq, decide_eq_false_iff_not] at h ⊢
  omega

theorem isInfinite_of_isFinite {x : Fp F} (h : x.isFinite = true) : x.isInfinite = false := by
  simp only [isFinite, isInfinite, decide_eq_true_eq, beq_eq_false_iff_ne] at h ⊢
  omega

/-- The sum of finite numbers is the rounded one, and so are the other results. -/
theorem add_of_isFinite {x y : Fp F} (hx : x.isFinite = true) (hy : y.isFinite = true) :
    x + y = ofRat (x.negative && y.negative) (x.toRat + y.toRat) := by
  show add x y = _
  unfold add propagating
  simp only [isNaN_of_isFinite hx, isNaN_of_isFinite hy, isInfinite_of_isFinite hx,
    isInfinite_of_isFinite hy, Bool.false_eq_true, if_false]

/-- Turning the sign turns the value. -/
theorem toRat_neg (x : Fp F) : x.neg.toRat = -x.toRat := by
  rw [toRat_eq, toRat_eq]
  unfold neg
  cases x.negative with
  | false => rfl
  | true => exact (neg_neg _).symm

/-- A difference of finite numbers is that of their values, rounded. -/
theorem sub_of_isFinite {x y : Fp F} (hx : x.isFinite = true) (hy : y.isFinite = true) :
    x - y = ofRat (x.negative && !y.negative) (x.toRat - y.toRat) := by
  have hn : y.neg.isFinite = true := hy
  rw [sub_eq_add_neg, ← toRat_neg y]
  refine .trans ?_ (add_of_isFinite hx hn)
  show sub x y = _
  unfold sub propagating
  simp only [isNaN_of_isFinite hx, isNaN_of_isFinite hy, Bool.false_eq_true, if_false]
  rfl

/-- A product of finite numbers is that of their values, rounded. -/
theorem mul_of_isFinite {x y : Fp F} (hx : x.isFinite = true) (hy : y.isFinite = true) :
    x * y = ofRat (x.negative != y.negative) (x.toRat * y.toRat) := by
  show mul x y = _
  unfold mul propagating
  simp only [isNaN_of_isFinite hx, isNaN_of_isFinite hy, isInfinite_of_isFinite hx,
    isInfinite_of_isFinite hy, Bool.or_self, Bool.false_eq_true, if_false]

/-- A quotient of finite numbers is that of their values, rounded. -/
theorem div_of_isFinite {x y : Fp F} (hx : x.isFinite = true) (hy : y.isFinite = true)
    (hz : y.isZero = false) :
    x / y = ofRat (x.negative != y.negative) (x.toRat / y.toRat) := by
  show div x y = _
  unfold div propagating
  simp only [isNaN_of_isFinite hx, isNaN_of_isFinite hy, isInfinite_of_isFinite hx,
    isInfinite_of_isFinite hy, hz, Bool.false_eq_true, if_false]

/-! ## Signs -/

theorem toRat_nonneg {x : Fp F} (h : x.negative = false) : 0 ≤ x.toRat := by
  rw [toRat_eq, h]
  exact magnitudeValue_nonneg F x.magnitude

theorem toRat_nonpos {x : Fp F} (h : x.negative = true) : x.toRat ≤ 0 := by
  rw [toRat_eq, h]
  exact neg_nonpos.mpr (magnitudeValue_nonneg F x.magnitude)

theorem toRat_zero (z : Bool) : (ofRat z 0 : Fp F).toRat = 0 := by
  have value : magnitudeValue F (ofRat z 0 : Fp F).magnitude = 0 := by
    show magnitudeValue F (0 % _) = 0
    rw [Nat.zero_mod]
    unfold magnitudeValue decompose
    dsimp only
    rw [Nat.zero_div, if_pos rfl, Nat.zero_mod, Nat.cast_zero, zero_mul]
  rw [toRat_eq, value, neg_zero, ite_self]

/-- Rounding keeps the sign. -/
theorem toRat_ofRat_nonneg (z : Bool) {q : ℚ} (h : 0 ≤ q) : 0 ≤ (ofRat z q : Fp F).toRat := by
  by_cases zero : q = 0
  · rw [zero, toRat_zero]
  · refine toRat_nonneg ?_
    unfold ofRat
    rw [if_neg zero]
    show decide (q < 0) = false
    rw [decide_eq_false_iff_not, not_lt]
    exact h

/-- What is rounded from zero or below is not positive, whatever its sign bit. -/
theorem toRat_ofRat_nonpos (z : Bool) {q : ℚ} (h : q ≤ 0) : (ofRat z q : Fp F).toRat ≤ 0 := by
  by_cases zero : q = 0
  · rw [zero, toRat_zero]
  · refine toRat_nonpos ?_
    unfold ofRat
    rw [if_neg zero]
    show decide (q < 0) = true
    rw [decide_eq_true_eq]
    exact lt_of_le_of_ne h zero

/-! ## Counts -/

/-- Greater integers have no lesser magnitudes. -/
theorem magnitude_ofInt_le {n m : Nat} (h : n ≤ m) :
    (ofInt n : Fp F).magnitude ≤ (ofInt m : Fp F).magnitude := by
  refine magnitude_ofRat_le _ _ ?_
  rw [Int.cast_natCast, Int.cast_natCast, Nat.abs_cast, Nat.abs_cast]
  exact_mod_cast h

theorem negative_ofInt (n : Nat) : (ofInt n : Fp F).negative = false := by
  unfold ofInt ofRat
  split
  next => rfl
  next =>
    show decide (((n : Int) : ℚ) < 0) = false
    rw [decide_eq_false_iff_not, not_lt, Int.cast_natCast]
    exact Nat.cast_nonneg n

/-- A count of one or more that fits in a word of 64 bits. -/
structure IsCount (n : Nat) : Prop where
  pos : 0 < n
  lt : n < twoPow 64

namespace IsCount

variable {n : Nat}

/-- A number that fits in a word of 32 bits, or one instead of none. -/
theorem of_word (h : n ≤ twoPow 32) : IsCount (max n 1) := by
  have wider : twoPow 32 < twoPow 64 := by decide
  have some := twoPow_pos 32
  constructor
  · omega
  · omega

/-- A count is rounded to a finite number. -/
theorem isFinite (h : IsCount n) : (ofInt n : Single).isFinite = true := by
  have most := magnitude_ofInt_le (F := .single) h.lt.le
  have : (ofInt (twoPow 64) : Single).magnitude < FloatFormat.single.infinity := by
    decide +kernel
  unfold Fp.isFinite
  rw [decide_eq_true_eq]
  omega

/-- A count is rounded to one at least. -/
theorem one_le_toRat (h : IsCount n) : 1 ≤ (ofInt n : Single).toRat := by
  have least := magnitudeValue_mono .single (magnitude_ofInt_le (F := .single) h.pos)
  have one : magnitudeValue .single (ofInt (1 : Nat) : Single).magnitude = 1 := by
    rw [← abs_toRat]
    decide +kernel
  rw [toRat_eq, negative_ofInt, ← one]
  exact least

/-- So it is not rounded to zero. -/
theorem isZero (h : IsCount n) : (ofInt n : Single).isZero = false := by
  have least : (ofInt (1 : Nat) : Single).magnitude ≤ (ofInt n : Single).magnitude :=
    magnitude_ofInt_le h.pos
  have : (ofInt (1 : Nat) : Single).magnitude ≠ 0 := by decide +kernel
  unfold Fp.isZero
  rw [beq_eq_false_iff_ne]
  omega

/-- A count over itself is one. -/
theorem over_self (h : IsCount n) : (ofInt n / ofInt n : Single) = 1 := by
  have value : (ofInt n : Single).toRat ≠ 0 := by
    have := h.one_le_toRat
    linarith
  rw [div_of_isFinite h.isFinite h.isFinite h.isZero, bne_self_eq_false, div_self value]
  rfl

end IsCount

end Fp

end VisualNovel
