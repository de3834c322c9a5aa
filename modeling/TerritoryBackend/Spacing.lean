import Mathlib.Data.List.Nodup
import Mathlib.Data.List.Perm.Subperm

/-!
# Integers that keep their distance

An interval has room for only so many integers that are farther than a gap from each
other.

Nothing in this file depends on the program being run.
-/

namespace Spacing

/-- The part of the interval an integer is in, the parts being one longer than the
gap. -/
def part (lo gap value : Int) : Nat := ((value - lo) / (gap + 1)).toNat

theorem close_of_part_eq {lo gap first second : Int} (nonneg : 0 ≤ gap) (firstInside : lo ≤ first)
    (secondInside : lo ≤ second) (same : part lo gap first = part lo gap second) :
    ((first - second).natAbs : Int) ≤ gap := by
  have positive : 0 < gap + 1 := by omega
  have firstQuotient : 0 ≤ (first - lo) / (gap + 1) :=
    Int.ediv_nonneg (by omega) (by omega)
  have secondQuotient : 0 ≤ (second - lo) / (gap + 1) :=
    Int.ediv_nonneg (by omega) (by omega)
  have quotients : (first - lo) / (gap + 1) = (second - lo) / (gap + 1) := by
    unfold part at same
    omega
  have firstDivided := Int.mul_ediv_add_emod (first - lo) (gap + 1)
  have secondDivided := Int.mul_ediv_add_emod (second - lo) (gap + 1)
  have firstRest := Int.emod_lt_of_pos (first - lo) positive
  have secondRest := Int.emod_lt_of_pos (second - lo) positive
  have different : gap + 1 ≠ 0 := by omega
  have firstNonneg := Int.emod_nonneg (first - lo) different
  have secondNonneg := Int.emod_nonneg (second - lo) different
  rw [quotients] at firstDivided
  omega

theorem length_le_of_apart {values : List Int} {lo hi gap : Int} (nonneg : 0 ≤ gap)
    (inside : ∀ value ∈ values, lo ≤ value ∧ value ≤ hi)
    (apart : values.Pairwise fun first second => gap < (first - second).natAbs) :
    values.length ≤ ((hi - lo) / (gap + 1)).toNat + 1 := by
  have positive : 0 < gap + 1 := by omega
  have parts : (values.map (part lo gap)).Nodup := by
    refine List.pairwise_map.mpr (apart.imp_of_mem fun {first second} member other far same => ?_)
    have close := close_of_part_eq nonneg (inside first member).1 (inside second other).1 same
    omega
  have within : values.map (part lo gap) ⊆ List.range (((hi - lo) / (gap + 1)).toNat + 1) := by
    intro index member
    obtain ⟨value, valueMem, rfl⟩ := List.mem_map.mp member
    have below : (value - lo) / (gap + 1) ≤ (hi - lo) / (gap + 1) :=
      Int.ediv_le_ediv positive (by have := (inside value valueMem).2; omega)
    rw [List.mem_range, Nat.lt_succ_iff]
    exact Int.toNat_le_toNat below
  have fits := (parts.subperm within).length_le
  simpa using fits

end Spacing
