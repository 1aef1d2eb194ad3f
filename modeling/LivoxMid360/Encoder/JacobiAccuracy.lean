/- digest: How far the eigenvalues and eigenvectors that come back are from the matrix. -/

import LivoxMid360.Encoder.JacobiRotations

set_option autoImplicit false
set_option relaxedAutoImplicit false

namespace LivoxMid360.Encoder.JacobiAccuracy

open Foundation.PlaneRotations
open Vectors PrincipalAxes AxisFrames JacobiRotations
open Matrix (of diagonal)

section Runs

variable {K : Type} [Field K] [LinearOrder K] [IsStrictOrderedRing K]

theorem abs_le_off {a : Mat3 K} (symmetric : (of a).IsSymm) {p q : Fin 3} {off : K}
    (pivoted : pivot a = (p, q, off)) {i j : Fin 3} (distinct : i ≠ j) : |a i j| ≤ off := by
  obtain ⟨-, -, covered⟩ := foldl_better [(0, 1), (0, 2), (1, 2)] (0, 1, 0) (abs_nonneg (a 0 1))
  rw [← pivot_eq, pivoted] at covered
  have above (i j : Fin 3) (less : i < j) : |a i j| ≤ off := by
    apply covered (i, j)
    revert less i j
    decide
  rcases lt_or_gt_of_ne distinct with less | greater
  · exact above i j less
  · have mirrored : a i j = a j i := symmetric.apply j i
    rw [mirrored]
    exact above j i greater

theorem offDiagonal_le_off {a : Mat3 K} (symmetric : (of a).IsSymm) {p q : Fin 3} {off : K}
    (pivoted : pivot a = (p, q, off)) : offDiagonal (of a) ≤ 6 * off ^ 2 := by
  have entries := offDiagonal_le (m := of a) (b := off ^ 2) fun i j distinct =>
    sq_le_sq.mpr ((abs_le_off symmetric pivoted distinct).trans (le_abs_self off))
  norm_num at entries
  linarith

variable {trig : Trig K} (turns : Turns trig) {matrix : Mat3 K} (symmetric : (of matrix).IsSymm)

include turns symmetric

theorem offDiagonal_rotated {n : Nat} {p q : Fin 3} {off : K}
    (pivoted : pivot (working trig matrix n).1 = (p, q, off)) (rotates : ¬ off ≤ tolerance matrix) :
    offDiagonal (of (working trig matrix (n + 1)).1) ≤
      2 / 3 * offDiagonal (of (working trig matrix n).1) := by
  have before := (inv_working turns symmetric n).symmetric
  have distinct : p ≠ q := by
    have apart := pivot_ne (working trig matrix n).1
    rwa [pivoted] at apart
  have unit : (turn trig p q (working trig matrix n).1).1 ^ 2 +
      (turn trig p q (working trig matrix n).1).2 ^ 2 = 1 := turns.unit _
  have cleared : inColumns (JacobiRotations.rotation trig p q (working trig matrix n).1)
      (of (working trig matrix n).1) p q = 0 :=
    inColumns_cross_eq_zero distinct before (turns.double _ _)
  have moved := offDiagonal_inColumns distinct before unit
  have most := offDiagonal_le (m := of (working trig matrix n).1) fun i j different =>
    sq_le_sq.mpr (abs_le_pivot before pivoted different)
  rw [← JacobiRotations.rotation, cleared, Matrix.of_apply] at moved
  norm_num at most
  rw [working_rotated pivoted rotates, (jacobiStep_eq trig p q _).1, moved]
  linarith

theorem offDiagonal_working (n : Nat) :
    offDiagonal (of (working trig matrix n).1) ≤
      max (6 * tolerance matrix ^ 2) ((2 / 3) ^ n * offDiagonal (of matrix)) := by
  induction n with
  | zero =>
    rw [pow_zero, one_mul]
    exact le_max_right _ _
  | succ n ih =>
    obtain ⟨p, q, off, pivoted⟩ : ∃ p q off, pivot (working trig matrix n).1 = (p, q, off) :=
      ⟨_, _, _, rfl⟩
    -- either the loop has stopped below the tolerance, or a third has gone
    by_cases stops : off ≤ tolerance matrix
    · have kept : working trig matrix (n + 1) = working trig matrix n := by
        rw [working, jacobiLoop_succ trig _ n pivoted, if_pos stops]
        rfl
      have before := (inv_working turns symmetric n).symmetric
      have nonneg : 0 ≤ off := (abs_nonneg _).trans (abs_le_off before pivoted Fin.zero_ne_one)
      rw [kept]
      refine ((offDiagonal_le_off before pivoted).trans ?_).trans (le_max_left _ _)
      exact mul_le_mul_of_nonneg_left (pow_le_pow_left₀ nonneg stops 2) (by norm_num)
    · have third : (0 : K) ≤ 2 / 3 := by norm_num
      refine (offDiagonal_rotated turns symmetric pivoted stops).trans ?_
      rcases le_max_iff.mp ih with small | shrunk
      · refine (le_max_left _ _).trans' ?_
        have floor : 0 ≤ 6 * tolerance matrix ^ 2 := by positivity
        linarith [mul_le_mul_of_nonneg_left small third]
      · refine (le_max_right _ _).trans' ?_
        rw [pow_succ', mul_assoc]
        exact mul_le_mul_of_nonneg_left shrunk third

/-- The values and vectors that come back are those of a matrix nearby: what separates the two
is what the last iteration left off the diagonal. -/
theorem jacobiEigen_accuracy :
    OrthonormalColumns (of (jacobiEigen trig matrix).2) ∧
      ∑ i, (jacobiEigen trig matrix).1 i = (of matrix).trace ∧
      squares (of matrix - of (jacobiEigen trig matrix).2 * diagonal (jacobiEigen trig matrix).1 *
          (of (jacobiEigen trig matrix).2).transpose) ≤
        max (6 * tolerance matrix ^ 2) ((2 / 3) ^ 32 * offDiagonal (of matrix)) ∧
      squares (of matrix * of (jacobiEigen trig matrix).2 -
          of (jacobiEigen trig matrix).2 * diagonal (jacobiEigen trig matrix).1) ≤
        max (6 * tolerance matrix ^ 2) ((2 / 3) ^ 32 * offDiagonal (of matrix)) := by
  have inv := inv_working turns symmetric 32
  have left := offDiagonal_working turns symmetric 32
  rw [jacobiEigen_eq]
  have apart : of matrix - of (working trig matrix 32).2 *
      diagonal (fun i => (working trig matrix 32).1 i i) * (of (working trig matrix 32).2).transpose =
        of (working trig matrix 32).2 * (of (working trig matrix 32).1 -
          diagonal fun i => of (working trig matrix 32).1 i i) *
            (of (working trig matrix 32).2).transpose := by
    rw [← inv.decomposed, Matrix.mul_sub, Matrix.sub_mul]
    rfl
  have error : squares (of matrix - of (working trig matrix 32).2 *
      diagonal (fun i => (working trig matrix 32).1 i i) *
        (of (working trig matrix 32).2).transpose) =
          offDiagonal (of (working trig matrix 32).1) := by
    rw [apart, ← squares_inColumns inv.orthogonal, inv.orthogonal.inColumns_eq,
      squares_sub_diagonal]
  have columns : of matrix * of (working trig matrix 32).2 - of (working trig matrix 32).2 *
      diagonal (fun i => (working trig matrix 32).1 i i) =
        (of matrix - of (working trig matrix 32).2 *
          diagonal (fun i => (working trig matrix 32).1 i i) *
            (of (working trig matrix 32).2).transpose) * of (working trig matrix 32).2 := by
    have inner : (of (working trig matrix 32).2).transpose * of (working trig matrix 32).2 = 1 :=
      inv.orthogonal
    rw [Matrix.sub_mul, Matrix.mul_assoc _ _ (of (working trig matrix 32).2), inner, Matrix.mul_one]
  refine ⟨inv.orthogonal, ?_, ?_, ?_⟩
  · rw [← inv.decomposed, inv.orthogonal.trace_eq]
    rfl
  · exact error.trans_le left
  · rw [columns, squares_mul _ inv.orthogonal]
    exact error.trans_le left

end Runs

theorem jacobiEigen_accuracy_sample :
    OrthonormalColumns (of (jacobiEigen realTrig sample).2) ∧
      ∑ i, (jacobiEigen realTrig sample).1 i = 4 + 3 + 5 := by
  have symmetric : (of sample).IsSymm := by
    ext i j
    fin_cases i <;> fin_cases j <;> rfl
  obtain ⟨columns, total, -, -⟩ := jacobiEigen_accuracy realTrig_turns symmetric
  exact ⟨columns, total.trans (Matrix.trace_fin_three _)⟩

end LivoxMid360.Encoder.JacobiAccuracy
