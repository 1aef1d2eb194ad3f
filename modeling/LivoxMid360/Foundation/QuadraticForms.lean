/- digest: The quadratic form of a matrix, and how far its off-diagonal entries can move it. -/

import LivoxMid360.Foundation.PlaneRotations
import Mathlib.Algebra.Order.BigOperators.Ring.Finset

set_option autoImplicit false
set_option relaxedAutoImplicit false

namespace LivoxMid360.Foundation.QuadraticForms

open Matrix
open PlaneRotations

universe u v

variable {n : Type u} [Fintype n]

section Form

variable {R : Type v} [CommRing R]

def form (m : Matrix n n R) (x : n → R) : R := x ⬝ᵥ m *ᵥ x

theorem form_eq_sum (m : Matrix n n R) (x : n → R) :
    form m x = ∑ i, ∑ j, m i j * (x i * x j) := by
  rw [form, dotProduct]
  refine Finset.sum_congr rfl fun i _ => ?_
  rw [mulVec, dotProduct, Finset.mul_sum]
  refine Finset.sum_congr rfl fun j _ => ?_
  ring

theorem inColumns_apply_self (v m : Matrix n n R) (i : n) :
    inColumns v m i i = form m fun r => v r i := by
  rw [inColumns, Matrix.mul_assoc, mul_apply, form, dotProduct]
  rfl

theorem form_smul (m : Matrix n n R) (x : n → R) (s : R) : form m (s • x) = s * s * form m x := by
  rw [form, form, mulVec_smul, smul_dotProduct, dotProduct_smul, smul_eq_mul, smul_eq_mul,
    mul_assoc]

theorem form_inColumns (v m : Matrix n n R) (x : n → R) :
    form (inColumns v m) x = form m (v *ᵥ x) := by
  rw [form, form, inColumns, ← mulVec_mulVec, ← mulVec_mulVec, dotProduct_mulVec,
    vecMul_transpose]

theorem form_frame (v a : Matrix n n R) (x : n → R) :
    form (v * a * vᵀ) x = form a (vᵀ *ᵥ x) := by
  rw [← form_inColumns, inColumns, transpose_transpose]

variable [DecidableEq n]

theorem dotProduct_frame {v : Matrix n n R} (hv : OrthonormalColumns v) (x : n → R) :
    (vᵀ *ᵥ x) ⬝ᵥ (vᵀ *ᵥ x) = x ⬝ᵥ x := by
  rw [dotProduct_mulVec, vecMul_transpose, mulVec_mulVec, hv.mul_transpose, one_mulVec]

/-- The part of the form that comes from the entries off the diagonal. -/
def crossing (m : Matrix n n R) (x : n → R) : R :=
  ∑ i, ∑ j ∈ Finset.univ.erase i, m i j * (x i * x j)

theorem form_eq_add_crossing (m : Matrix n n R) (x : n → R) :
    form m x = ∑ i, m i i * (x i * x i) + crossing m x := by
  rw [form_eq_sum, crossing, ← Finset.sum_add_distrib]
  exact Finset.sum_congr rfl fun i _ => (Finset.add_sum_erase _ _ (Finset.mem_univ i)).symm

end Form

section Bounds

variable [DecidableEq n] {R : Type v} [CommRing R] [LinearOrder R] [IsStrictOrderedRing R]

theorem crossing_sq_le (m : Matrix n n R) (x : n → R) :
    crossing m x ^ 2 ≤ offDiagonal m * (x ⬝ᵥ x) ^ 2 := by
  have products : ∑ i, ∑ j ∈ Finset.univ.erase i, (x i * x j) ^ 2 ≤ (x ⬝ᵥ x) ^ 2 := by
    rw [sq, dotProduct, Finset.sum_mul_sum]
    refine Finset.sum_le_sum fun i _ => ?_
    calc
      _ ≤ ∑ j, (x i * x j) ^ 2 :=
        Finset.sum_le_sum_of_subset_of_nonneg (Finset.erase_subset i _) fun j _ _ => sq_nonneg _
      _ = ∑ j, x i * x i * (x j * x j) := Finset.sum_congr rfl fun j _ => by ring
  have schwarz := Finset.sum_mul_sq_le_sq_mul_sq
    (Finset.univ.sigma fun i => Finset.univ.erase i) (fun c => m c.1 c.2)
    (fun c : (_ : n) × n => x c.1 * x c.2)
  rw [Finset.sum_sigma, Finset.sum_sigma, Finset.sum_sigma] at schwarz
  exact schwarz.trans (mul_le_mul_of_nonneg_left products
    (Finset.sum_nonneg fun i _ => Finset.sum_nonneg fun j _ => sq_nonneg _))

variable {m : Matrix n n R} {e : R}

theorem abs_crossing_le (nonneg : 0 ≤ e) (small : offDiagonal m ≤ e ^ 2) (x : n → R) :
    |crossing m x| ≤ e * (x ⬝ᵥ x) := by
  have length : 0 ≤ x ⬝ᵥ x := Finset.sum_nonneg fun i _ => mul_self_nonneg (x i)
  apply abs_le_of_sq_le_sq _ (mul_nonneg nonneg length)
  calc
    _ ≤ offDiagonal m * (x ⬝ᵥ x) ^ 2 := crossing_sq_le m x
    _ ≤ e ^ 2 * (x ⬝ᵥ x) ^ 2 := mul_le_mul_of_nonneg_right small (sq_nonneg _)
    _ = (e * (x ⬝ᵥ x)) ^ 2 := by ring

/-- Along a vector, the form is at most the largest diagonal entry that the vector meets, up to
what lies off the diagonal. -/
theorem form_le (nonneg : 0 ≤ e) (small : offDiagonal m ≤ e ^ 2) {x : n → R} {top : R}
    (bound : ∀ i, x i ≠ 0 → m i i ≤ top) : form m x ≤ (top + e) * (x ⬝ᵥ x) := by
  have diagonal : ∑ i, m i i * (x i * x i) ≤ top * (x ⬝ᵥ x) := by
    rw [dotProduct, Finset.mul_sum]
    refine Finset.sum_le_sum fun i _ => ?_
    by_cases zero : x i = 0
    · rw [zero, mul_zero, mul_zero, mul_zero]
    · exact mul_le_mul_of_nonneg_right (bound i zero) (mul_self_nonneg (x i))
  have rest := le_of_abs_le (abs_crossing_le nonneg small x)
  rw [form_eq_add_crossing]
  linarith

theorem le_form (nonneg : 0 ≤ e) (small : offDiagonal m ≤ e ^ 2) {x : n → R} {bottom : R}
    (bound : ∀ i, x i ≠ 0 → bottom ≤ m i i) : (bottom - e) * (x ⬝ᵥ x) ≤ form m x := by
  have diagonal : bottom * (x ⬝ᵥ x) ≤ ∑ i, m i i * (x i * x i) := by
    rw [dotProduct, Finset.mul_sum]
    refine Finset.sum_le_sum fun i _ => ?_
    by_cases zero : x i = 0
    · rw [zero, mul_zero, mul_zero, mul_zero]
    · exact mul_le_mul_of_nonneg_right (bound i zero) (mul_self_nonneg (x i))
  have rest := neg_le_of_abs_le (abs_crossing_le nonneg small x)
  rw [form_eq_add_crossing]
  linarith

end Bounds

end LivoxMid360.Foundation.QuadraticForms
