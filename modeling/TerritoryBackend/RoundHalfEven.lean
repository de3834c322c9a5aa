import Mathlib.Algebra.Order.Floor.Ring
import Mathlib.Algebra.Order.Archimedean.Real.Basic
import Mathlib.Algebra.Group.Int.Even
import Mathlib.Tactic.Linarith

/-!
# Rounding half to even

Python's `round` of a number: the nearest integer, and the even one of the two
nearest where there are two.
-/

/-- `round(value)` -/
noncomputable def roundHalfEven (value : ℝ) : Int :=
  if Int.fract value < 1 / 2 then ⌊value⌋
  else if 1 / 2 < Int.fract value then ⌊value⌋ + 1
  else if Even ⌊value⌋ then ⌊value⌋
  else ⌊value⌋ + 1

@[simp]
theorem roundHalfEven_intCast (value : Int) : roundHalfEven (value : ℝ) = value := by
  have small : Int.fract (value : ℝ) < 1 / 2 := by
    rw [Int.fract_intCast]
    norm_num
  simp [roundHalfEven]

/-- The integer is nearest to the value, and even if another one is as near. -/
def IsNearestEven (value : ℝ) (nearest : Int) : Prop :=
  |value - nearest| < 1 / 2 ∨ |value - nearest| = 1 / 2 ∧ Even nearest

namespace IsNearestEven

variable {value : ℝ} {nearest other : Int}

theorem abs_sub_le (isNearest : IsNearestEven value nearest) : |value - nearest| ≤ 1 / 2 :=
  isNearest.elim le_of_lt fun tie => tie.1.le

/-- Two nearest integers next to each other would both be even. -/
theorem unique (isNearest : IsNearestEven value nearest) (isOther : IsNearestEven value other) :
    nearest = other := by
  have near := abs_le.mp isNearest.abs_sub_le
  have nearOther := abs_le.mp isOther.abs_sub_le
  have below : (nearest : ℝ) ≤ ((other + 1 : Int) : ℝ) := by push_cast; linarith
  have above : (other : ℝ) ≤ ((nearest + 1 : Int) : ℝ) := by push_cast; linarith
  rw [Int.cast_le] at below above
  by_contra different
  have ties : |value - nearest| = 1 / 2 ∧ |value - other| = 1 / 2 := by
    rcases lt_or_gt_of_ne different with less | greater
    · have next : (other : ℝ) = nearest + 1 := by
        exact_mod_cast (by omega : other = nearest + 1)
      rw [next] at nearOther ⊢
      have middle : value - nearest = 1 / 2 := by linarith
      exact ⟨by rw [middle]; norm_num, by rw [← sub_sub, middle]; norm_num⟩
    · have next : (nearest : ℝ) = other + 1 := by
        exact_mod_cast (by omega : nearest = other + 1)
      rw [next] at near ⊢
      have middle : value - other = 1 / 2 := by linarith
      exact ⟨by rw [← sub_sub, middle]; norm_num, by rw [middle]; norm_num⟩
  have even := isNearest.resolve_left (by rw [ties.1]; exact lt_irrefl _)
  have evenOther := isOther.resolve_left (by rw [ties.2]; exact lt_irrefl _)
  obtain ⟨half, halfEq⟩ := even.2
  obtain ⟨otherHalf, otherHalfEq⟩ := evenOther.2
  omega

theorem neg (isNearest : IsNearestEven value nearest) : IsNearestEven (-value) (-nearest) := by
  have same : |(-value) - ((-nearest : Int) : ℝ)| = |value - nearest| := by
    rw [← abs_neg]
    congr 1
    push_cast
    ring
  unfold IsNearestEven
  rw [same]
  exact isNearest.imp_right fun tie => ⟨tie.1, tie.2.neg⟩

end IsNearestEven

theorem isNearestEven_roundHalfEven (value : ℝ) :
    IsNearestEven value (roundHalfEven value) := by
  have split := Int.self_sub_floor value
  have low := Int.fract_nonneg value
  have high := Int.fract_lt_one value
  have toNext : value - ((⌊value⌋ + 1 : Int) : ℝ) = Int.fract value - 1 := by
    push_cast
    linarith
  unfold roundHalfEven
  split
  · left
    rw [split, abs_of_nonneg low]
    assumption
  split
  · left
    rw [toNext, abs_of_nonpos (by linarith)]
    linarith
  have tie : Int.fract value = 1 / 2 := by linarith
  split
  · right
    refine ⟨?_, ‹_›⟩
    rw [split, tie]
    norm_num
  · right
    refine ⟨?_, Int.even_add_one.mpr ‹_›⟩
    rw [toNext, tie]
    norm_num

theorem roundHalfEven_neg (value : ℝ) : roundHalfEven (-value) = -roundHalfEven value :=
  (isNearestEven_roundHalfEven (-value)).unique (isNearestEven_roundHalfEven value).neg

theorem roundHalfEven_mono {smaller larger : ℝ} (ordered : smaller ≤ larger) :
    roundHalfEven smaller ≤ roundHalfEven larger := by
  have near := abs_le.mp (isNearestEven_roundHalfEven smaller).abs_sub_le
  have nearLarger := abs_le.mp (isNearestEven_roundHalfEven larger).abs_sub_le
  by_contra reversed
  have next : (roundHalfEven larger : ℝ) + 1 ≤ roundHalfEven smaller := by
    exact_mod_cast (by omega : roundHalfEven larger + 1 ≤ roundHalfEven smaller)
  -- A step down leaves no room between the two values.
  have same : smaller = larger := by linarith
  rw [same] at reversed
  exact reversed le_rfl
