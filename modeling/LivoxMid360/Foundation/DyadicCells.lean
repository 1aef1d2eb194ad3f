/- digest: The dyadic cells of an interval: which cell holds a point, and where a cell ends. -/

import Mathlib.Algebra.Order.Field.Basic
import Mathlib.Algebra.Order.Floor.Semiring
import Mathlib.Tactic.FieldSimp
import Mathlib.Tactic.Linarith
import Mathlib.Tactic.Ring

set_option autoImplicit false
set_option relaxedAutoImplicit false

namespace LivoxMid360.Foundation.DyadicCells

universe u

section Interval

variable {K : Type u} [Field K] [LinearOrder K] [IsStrictOrderedRing K] [FloorSemiring K]

/-- The number of the cell of `x` when `lo..hi` is halved `r` times. The last cell is closed on
the right; an interval without thickness has only its last cell. -/
def cellNumber (r : Nat) (lo hi x : K) : Nat :=
  if lo = hi then 2 ^ r - 1 else min (2 ^ r - 1) ⌊2 ^ r * (x - lo) / (hi - lo)⌋₊

omit [IsStrictOrderedRing K] in
theorem cellNumber_lt (r : Nat) (lo hi x : K) : cellNumber r lo hi x < 2 ^ r := by
  have positive : 0 < 2 ^ r := Nat.two_pow_pos r
  rw [cellNumber]
  split
  · omega
  · exact Nat.lt_of_le_of_lt (Nat.min_le_left _ _) (by omega)

theorem cellNumber_left {r : Nat} {lo hi x : K} (thick : lo < hi) (left : x < (lo + hi) / 2) :
    cellNumber (r + 1) lo hi x = cellNumber r lo ((lo + hi) / 2) x := by
  have half : lo < (lo + hi) / 2 := by linarith
  have ratio : 2 ^ r * (x - lo) / ((lo + hi) / 2 - lo) = 2 ^ (r + 1) * (x - lo) / (hi - lo) := by
    rw [div_eq_div_iff (by linarith) (by linarith), pow_succ]
    ring
  have below : 2 ^ (r + 1) * (x - lo) / (hi - lo) < ((2 ^ r : Nat) : K) := by
    rw [div_lt_iff₀ (by linarith), pow_succ]
    push_cast
    have power : (0 : K) < 2 ^ r := by positivity
    nlinarith
  have floor : ⌊2 ^ (r + 1) * (x - lo) / (hi - lo)⌋₊ < 2 ^ r :=
    (Nat.floor_lt' (Nat.two_pow_pos r).ne').mpr below
  rw [cellNumber, cellNumber, if_neg thick.ne, if_neg half.ne, ratio, pow_succ]
  omega

theorem cellNumber_right {r : Nat} {lo hi x : K} (thick : lo < hi) (right : (lo + hi) / 2 ≤ x) :
    cellNumber (r + 1) lo hi x = 2 ^ r + cellNumber r ((lo + hi) / 2) hi x := by
  have half : (lo + hi) / 2 < hi := by linarith
  have ratio : 2 ^ r * (x - (lo + hi) / 2) / (hi - (lo + hi) / 2) =
      2 ^ (r + 1) * (x - lo) / (hi - lo) - ((2 ^ r : Nat) : K) := by
    rw [div_eq_iff (by linarith), sub_mul, div_mul_eq_mul_div, eq_sub_iff_add_eq,
      eq_div_iff (by linarith), pow_succ]
    push_cast
    ring
  have above : ((2 ^ r : Nat) : K) ≤ 2 ^ (r + 1) * (x - lo) / (hi - lo) := by
    rw [le_div_iff₀ (by linarith), pow_succ]
    push_cast
    have power : (0 : K) < 2 ^ r := by positivity
    nlinarith
  have floor : 2 ^ r ≤ ⌊2 ^ (r + 1) * (x - lo) / (hi - lo)⌋₊ := Nat.le_floor above
  rw [cellNumber, cellNumber, if_neg thick.ne, if_neg half.ne, ratio, Nat.floor_sub_natCast,
    pow_succ]
  have positive : 0 < 2 ^ r := Nat.two_pow_pos r
  omega

/-- Halving once more prepends the side of the split: the lower half is open at the top. -/
theorem cellNumber_succ (r : Nat) {lo hi x : K} (box : lo ≤ hi) (inside : lo ≤ x) :
    cellNumber (r + 1) lo hi x =
      if (lo + hi) / 2 ≤ x then 2 ^ r + cellNumber r ((lo + hi) / 2) hi x
      else cellNumber r lo ((lo + hi) / 2) x := by
  rcases box.lt_or_eq with thick | thin
  · split
    · next right => exact cellNumber_right thick right
    · next left => exact cellNumber_left thick (not_le.mp left)
  · have mid : (lo + hi) / 2 = lo := by rw [← thin]; ring
    have positive : 0 < 2 ^ r := Nat.two_pow_pos r
    rw [mid, if_pos inside, cellNumber, cellNumber, if_pos thin, if_pos thin, pow_succ]
    omega

end Interval

section Ends

variable {K : Type u} [Field K]

/-- The lower end of the cell `n`. -/
def cellLo (r : Nat) (lo hi : K) (n : Nat) : K := lo + (hi - lo) * n / 2 ^ r

def cellHi (r : Nat) (lo hi : K) (n : Nat) : K := cellLo r lo hi (n + 1)

@[simp] theorem cellLo_zero (lo hi : K) : cellLo 0 lo hi 0 = lo := by
  simp [cellLo]

@[simp] theorem cellHi_zero (lo hi : K) : cellHi 0 lo hi 0 = hi := by
  simp [cellHi, cellLo]

variable [NeZero (2 : K)]

theorem cellLo_left (r : Nat) (lo hi : K) (n : Nat) :
    cellLo (r + 1) lo hi n = cellLo r lo ((lo + hi) / 2) n := by
  have two : (2 : K) ≠ 0 := two_ne_zero
  rw [cellLo, cellLo, pow_succ]
  field_simp
  ring

theorem cellLo_right (r : Nat) (lo hi : K) (n : Nat) :
    cellLo (r + 1) lo hi (2 ^ r + n) = cellLo r ((lo + hi) / 2) hi n := by
  have two : (2 : K) ≠ 0 := two_ne_zero
  rw [cellLo, cellLo, pow_succ]
  push_cast
  field_simp
  ring

theorem cellHi_left (r : Nat) (lo hi : K) (n : Nat) :
    cellHi (r + 1) lo hi n = cellHi r lo ((lo + hi) / 2) n :=
  cellLo_left r lo hi (n + 1)

theorem cellHi_right (r : Nat) (lo hi : K) (n : Nat) :
    cellHi (r + 1) lo hi (2 ^ r + n) = cellHi r ((lo + hi) / 2) hi n :=
  cellLo_right r lo hi (n + 1)

end Ends

theorem cellLo_le_cellHi {K : Type u} [Field K] [LinearOrder K] [IsStrictOrderedRing K] (r : Nat)
    {lo hi : K} (box : lo ≤ hi) (n : Nat) : cellLo r lo hi n ≤ cellHi r lo hi n := by
  have thickness : 0 ≤ hi - lo := sub_nonneg.mpr box
  rw [cellHi, cellLo, cellLo]
  push_cast
  gcongr
  linarith

end LivoxMid360.Foundation.DyadicCells
