/- digest: Unit quaternions over the reals: turns of space, turns about an axis, slerp. -/

import Mathlib.Algebra.Quaternion
import Mathlib.Algebra.Star.Unitary
import Mathlib.Analysis.SpecialFunctions.Trigonometric.Inverse

set_option autoImplicit false
set_option relaxedAutoImplicit false

open Quaternion

namespace LivoxMid360.Foundation.UnitQuaternions

/-- The numeral of halves, by name: a definition refers to this instance instead of carrying its
own proof of it. -/
scoped instance atLeastTwoHalf : Nat.AtLeastTwo 2 := ⟨le_rfl⟩

noncomputable section

abbrev Rotation := unitary ℍ[ℝ]

def imaginary (v : Fin 3 → ℝ) : ℍ[ℝ] := ⟨0, v 0, v 1, v 2⟩

def vector (a : ℍ[ℝ]) : Fin 3 → ℝ := ![a.imI, a.imJ, a.imK]

/-- The vector that a quaternion turns a vector to. -/
def turn (q : Rotation) (v : Fin 3 → ℝ) : Fin 3 → ℝ := vector (q * imaginary v * star (q : ℍ[ℝ]))

@[simp] theorem vector_imaginary (v : Fin 3 → ℝ) : vector (imaginary v) = v := by
  ext k
  fin_cases k <;> rfl

@[simp] theorem re_imaginary (v : Fin 3 → ℝ) : (imaginary v).re = 0 := rfl

@[simp] theorem imI_imaginary (v : Fin 3 → ℝ) : (imaginary v).imI = v 0 := rfl

@[simp] theorem imJ_imaginary (v : Fin 3 → ℝ) : (imaginary v).imJ = v 1 := rfl

@[simp] theorem imK_imaginary (v : Fin 3 → ℝ) : (imaginary v).imK = v 2 := rfl

theorem imaginary_vector {a : ℍ[ℝ]} (h : a.re = 0) : imaginary (vector a) = a := by
  ext
  · exact h.symm
  · rfl
  · rfl
  · rfl

theorem imaginary_turn (q : Rotation) (v : Fin 3 → ℝ) :
    imaginary (turn q v) = q * imaginary v * star (q : ℍ[ℝ]) := by
  apply imaginary_vector
  rw [← Quaternion.star_eq_neg, star_mul, star_mul, star_star]
  have flipped : star (imaginary v) = -imaginary v := Quaternion.star_eq_neg.mpr rfl
  rw [flipped, neg_mul, mul_neg, mul_assoc]

theorem turn_one (v : Fin 3 → ℝ) : turn 1 v = v := by
  rw [turn, OneMemClass.coe_one, star_one, one_mul, mul_one, vector_imaginary]

theorem turn_mul (p q : Rotation) (v : Fin 3 → ℝ) : turn (p * q) v = turn p (turn q v) := by
  have product : ((p * q : Rotation) : ℍ[ℝ]) = (p : ℍ[ℝ]) * (q : ℍ[ℝ]) := rfl
  rw [turn, turn, imaginary_turn, product, star_mul]
  simp only [mul_assoc]

theorem turn_inv_turn (q : Rotation) (v : Fin 3 → ℝ) : turn q⁻¹ (turn q v) = v := by
  rw [← turn_mul, inv_mul_cancel, turn_one]

theorem turn_turn_inv (q : Rotation) (v : Fin 3 → ℝ) : turn q (turn q⁻¹ v) = v := by
  rw [← turn_mul, mul_inv_cancel, turn_one]

theorem re_mul_imaginary (v w : Fin 3 → ℝ) :
    (imaginary v * imaginary w).re = -(v 0 * w 0 + v 1 * w 1 + v 2 * w 2) := by
  rw [Quaternion.re_mul]
  change 0 * 0 - v 0 * w 0 - v 1 * w 1 - v 2 * w 2 = _
  ring

theorem re_mul_comm (a b : ℍ[ℝ]) : (a * b).re = (b * a).re := by
  rw [Quaternion.re_mul, Quaternion.re_mul]
  ring

theorem dot_turn (q : Rotation) (v w : Fin 3 → ℝ) :
    turn q v 0 * turn q w 0 + turn q v 1 * turn q w 1 + turn q v 2 * turn q w 2 =
      v 0 * w 0 + v 1 * w 1 + v 2 * w 2 := by
  have unit : star (q : ℍ[ℝ]) * q = 1 := Unitary.coe_star_mul_self q
  rw [← neg_inj, ← re_mul_imaginary, ← re_mul_imaginary, imaginary_turn, imaginary_turn]
  calc (q * imaginary v * star (q : ℍ[ℝ]) * (q * imaginary w * star (q : ℍ[ℝ]))).re
      = (q * (imaginary v * (star (q : ℍ[ℝ]) * q) * imaginary w * star (q : ℍ[ℝ]))).re := by
        simp only [mul_assoc]
    _ = (imaginary v * imaginary w * (star (q : ℍ[ℝ]) * q)).re := by
        rw [re_mul_comm, unit, mul_one, mul_assoc, unit]
    _ = (imaginary v * imaginary w).re := by rw [unit, mul_one]

def len (v : Fin 3 → ℝ) : ℝ := √(v 0 * v 0 + v 1 * v 1 + v 2 * v 2)

abbrev Axis := {n : Fin 3 → ℝ // n 0 * n 0 + n 1 * n 1 + n 2 * n 2 = 1}

theorem len_nonneg (v : Fin 3 → ℝ) : 0 ≤ len v := Real.sqrt_nonneg _

theorem len_mul_self (v : Fin 3 → ℝ) : len v * len v = v 0 * v 0 + v 1 * v 1 + v 2 * v 2 :=
  Real.mul_self_sqrt
    (add_nonneg (add_nonneg (mul_self_nonneg _) (mul_self_nonneg _)) (mul_self_nonneg _))

theorem len_smul_axis (φ : ℝ) (n : Axis) : len (φ • (n : Fin 3 → ℝ)) = |φ| := by
  have factor : (φ • n.1) 0 * (φ • n.1) 0 + (φ • n.1) 1 * (φ • n.1) 1 +
      (φ • n.1) 2 * (φ • n.1) 2 = φ * φ * (n.1 0 * n.1 0 + n.1 1 * n.1 1 + n.1 2 * n.1 2) := by
    simp only [Pi.smul_apply, smul_eq_mul]
    ring
  rw [len, factor, n.2, mul_one, Real.sqrt_mul_self_eq_abs]

theorem eq_zero_of_squares {v : Fin 3 → ℝ} (h : v 0 * v 0 + v 1 * v 1 + v 2 * v 2 = 0) :
    v = 0 := by
  have first := mul_self_nonneg (v 0)
  have second := mul_self_nonneg (v 1)
  have third := mul_self_nonneg (v 2)
  have x : v 0 = 0 := mul_self_eq_zero.mp (le_antisymm (by linarith) first)
  have y : v 1 = 0 := mul_self_eq_zero.mp (le_antisymm (by linarith) second)
  have z : v 2 = 0 := mul_self_eq_zero.mp (le_antisymm (by linarith) third)
  ext k
  fin_cases k
  · exact x
  · exact y
  · exact z

theorem eq_zero_of_len {v : Fin 3 → ℝ} (h : len v = 0) : v = 0 := by
  have squares := len_mul_self v
  rw [h, mul_zero] at squares
  exact eq_zero_of_squares squares.symm

/-- The axis of a vector that is not zero. -/
def direction (v : Fin 3 → ℝ) (h : len v ≠ 0) : Axis where
  val k := v k / len v
  property := by
    rw [div_mul_div_comm, div_mul_div_comm, div_mul_div_comm, ← add_div, ← add_div,
      ← len_mul_self]
    exact div_self (mul_ne_zero h h)

theorem direction_apply {v : Fin 3 → ℝ} (h : len v ≠ 0) (k : Fin 3) :
    (direction v h).1 k = v k / len v := rfl

theorem len_smul_direction (v : Fin 3 → ℝ) (h : len v ≠ 0) :
    len v • (direction v h : Fin 3 → ℝ) = v := by
  ext k
  exact mul_div_cancel₀ (v k) h

def upward : Axis where
  val := ![0, 0, 1]
  property := by
    change (0 * 0 + 0 * 0 + 1 * 1 : ℝ) = 1
    norm_num

theorem exists_axis (v : Fin 3 → ℝ) : ∃ n : Axis, v = len v • (n : Fin 3 → ℝ) := by
  by_cases zero : len v = 0
  · exact ⟨upward, by rw [zero, zero_smul, eq_zero_of_len zero]⟩
  · exact ⟨direction v zero, (len_smul_direction v zero).symm⟩

theorem unitary_of_normSq {a : ℍ[ℝ]} (h : normSq a = 1) : a ∈ unitary ℍ[ℝ] := by
  rw [Unitary.mem_iff, star_mul_self, self_mul_star, h]
  exact ⟨rfl, rfl⟩

/-- The turn by an angle about an axis. -/
def about (n : Axis) (φ : ℝ) : Rotation where
  val := ⟨Real.cos (φ / 2), Real.sin (φ / 2) * n.1 0, Real.sin (φ / 2) * n.1 1,
    Real.sin (φ / 2) * n.1 2⟩
  property := by
    refine unitary_of_normSq ((Quaternion.normSq_def' _).trans ?_)
    linear_combination Real.sin (φ / 2) ^ 2 * n.2 + Real.sin_sq_add_cos_sq (φ / 2)

theorem about_zero (n : Axis) : about n 0 = 1 := by
  apply Subtype.ext
  ext <;> simp [about]

theorem about_add (n : Axis) (φ ψ : ℝ) : about n (φ + ψ) = about n φ * about n ψ := by
  have product : ((about n φ * about n ψ : Rotation) : ℍ[ℝ]) =
      (about n φ : ℍ[ℝ]) * (about n ψ : ℍ[ℝ]) := rfl
  apply Subtype.ext
  rw [product]
  have unit := n.2
  ext
  · rw [Quaternion.re_mul]
    simp only [about, add_div, Real.cos_add]
    linear_combination Real.sin (φ / 2) * Real.sin (ψ / 2) * unit
  · rw [Quaternion.imI_mul]
    simp only [about, add_div, Real.sin_add]
    ring
  · rw [Quaternion.imJ_mul]
    simp only [about, add_div, Real.sin_add]
    ring
  · rw [Quaternion.imK_mul]
    simp only [about, add_div, Real.sin_add]
    ring

def crossed (n v : Fin 3 → ℝ) : Fin 3 → ℝ :=
  ![n 1 * v 2 - n 2 * v 1, n 2 * v 0 - n 0 * v 2, n 0 * v 1 - n 1 * v 0]

@[simp] theorem re_about (n : Axis) (φ : ℝ) : (about n φ : ℍ[ℝ]).re = Real.cos (φ / 2) := rfl

@[simp] theorem imI_about (n : Axis) (φ : ℝ) :
    (about n φ : ℍ[ℝ]).imI = Real.sin (φ / 2) * n.1 0 := rfl

@[simp] theorem imJ_about (n : Axis) (φ : ℝ) :
    (about n φ : ℍ[ℝ]).imJ = Real.sin (φ / 2) * n.1 1 := rfl

@[simp] theorem imK_about (n : Axis) (φ : ℝ) :
    (about n φ : ℍ[ℝ]).imK = Real.sin (φ / 2) * n.1 2 := rfl

theorem crossed_smul (c : ℝ) (n v : Fin 3 → ℝ) : crossed (c • n) v = c • crossed n v := by
  ext k
  fin_cases k
  · change c * n 1 * v 2 - c * n 2 * v 1 = c * (n 1 * v 2 - n 2 * v 1)
    ring
  · change c * n 2 * v 0 - c * n 0 * v 2 = c * (n 2 * v 0 - n 0 * v 2)
    ring
  · change c * n 0 * v 1 - c * n 1 * v 0 = c * (n 0 * v 1 - n 1 * v 0)
    ring

theorem vector_about (n : Axis) (φ : ℝ) :
    vector (about n φ) = Real.sin (φ / 2) • (n : Fin 3 → ℝ) := by
  ext k
  fin_cases k <;> rfl

/-- A vector between a quaternion and its conjugate, by the parts of the quaternion. -/
theorem vector_mul_star (a : ℍ[ℝ]) (v : Fin 3 → ℝ) (k : Fin 3) :
    vector (a * imaginary v * star a) k =
      (a.re ^ 2 - (a.imI ^ 2 + a.imJ ^ 2 + a.imK ^ 2)) * v k +
        2 * a.re * crossed (vector a) v k +
        2 * (a.imI * v 0 + a.imJ * v 1 + a.imK * v 2) * vector a k := by
  have parts (b : ℍ[ℝ]) : vector b = ![b.imI, b.imJ, b.imK] := rfl
  rw [parts, parts, crossed]
  simp only [Quaternion.re_mul, Quaternion.imI_mul, Quaternion.imJ_mul, Quaternion.imK_mul,
    Quaternion.re_star, Quaternion.imI_star, Quaternion.imJ_star, Quaternion.imK_star,
    re_imaginary, imI_imaginary, imJ_imaginary, imK_imaginary]
  fin_cases k
  · change _ = _ * v 0 + _ * (a.imJ * v 2 - a.imK * v 1) + _ * a.imI
    dsimp
    ring
  · change _ = _ * v 1 + _ * (a.imK * v 0 - a.imI * v 2) + _ * a.imJ
    dsimp
    ring
  · change _ = _ * v 2 + _ * (a.imI * v 1 - a.imJ * v 0) + _ * a.imK
    dsimp
    ring

/-- Rodrigues' formula. -/
theorem turn_about (n : Axis) (φ : ℝ) (v : Fin 3 → ℝ) :
    turn (about n φ) v = Real.cos φ • v + Real.sin φ • crossed n v +
      ((1 - Real.cos φ) * (n.1 0 * v 0 + n.1 1 * v 1 + n.1 2 * v 2)) • n.1 := by
  have one : Real.sin (φ / 2) ^ 2 + Real.cos (φ / 2) ^ 2 = 1 := Real.sin_sq_add_cos_sq _
  have whole : φ = 2 * (φ / 2) := by ring
  have cosine : Real.cos φ = 2 * Real.cos (φ / 2) ^ 2 - 1 := by
    conv_lhs => rw [whole]
    exact Real.cos_two_mul _
  have sine : Real.sin φ = 2 * Real.sin (φ / 2) * Real.cos (φ / 2) := by
    conv_lhs => rw [whole]
    exact Real.sin_two_mul _
  ext k
  rw [turn, vector_mul_star, vector_about, crossed_smul, cosine, sine]
  simp only [re_about, imI_about, imJ_about, imK_about, Pi.add_apply, Pi.smul_apply, smul_eq_mul]
  linear_combination (-Real.sin (φ / 2) ^ 2 * v k) * n.2 +
    (2 * n.1 k * (n.1 0 * v 0 + n.1 1 * v 1 + n.1 2 * v 2) - v k) * one

theorem turn_about_self (n : Axis) (φ : ℝ) : turn (about n φ) n.1 = n.1 := by
  have none : crossed n.1 n.1 = 0 := by
    ext k
    fin_cases k
    · exact sub_eq_zero.mpr (mul_comm _ _)
    · exact sub_eq_zero.mpr (mul_comm _ _)
    · exact sub_eq_zero.mpr (mul_comm _ _)
  rw [turn_about, none, n.2, smul_zero, add_zero, mul_one, ← add_smul, add_sub_cancel, one_smul]

/-- The turn by a vector: about its axis, by its length. -/
def scaledAxis (v : Fin 3 → ℝ) : Rotation :=
  if h : len v = 0 then 1 else about (direction v h) (len v)

theorem scaledAxis_smul (n : Axis) (φ : ℝ) : scaledAxis (φ • (n : Fin 3 → ℝ)) = about n φ := by
  have size := len_smul_axis φ n
  rw [scaledAxis]
  by_cases zero : φ = 0
  · rw [dif_pos (by rw [size, zero, abs_zero]), zero, about_zero]
  have nonzero : len (φ • (n : Fin 3 → ℝ)) ≠ 0 := by rwa [size, abs_ne_zero]
  rw [dif_neg nonzero]
  apply Subtype.ext
  rcases lt_or_gt_of_ne zero with negative | positive
  · have turned : ∀ k, (direction (φ • (n : Fin 3 → ℝ)) nonzero).1 k = -n.1 k := by
      intro k
      rw [direction_apply, size, abs_of_neg negative, Pi.smul_apply, smul_eq_mul, div_neg,
        mul_div_cancel_left₀ _ zero]
    ext <;> simp [about, turned, size, abs_of_neg negative, neg_div]
  · have same : ∀ k, (direction (φ • (n : Fin 3 → ℝ)) nonzero).1 k = n.1 k := by
      intro k
      rw [direction_apply, size, abs_of_pos positive, Pi.smul_apply, smul_eq_mul,
        mul_div_cancel_left₀ _ zero]
    ext <;> simp [about, same, size, abs_of_pos positive]

theorem scaledAxis_add_smul (v : Fin 3 → ℝ) (a b : ℝ) :
    scaledAxis ((a + b) • v) = scaledAxis (a • v) * scaledAxis (b • v) := by
  obtain ⟨n, axis⟩ := exists_axis v
  rw [axis, smul_smul, smul_smul, smul_smul, scaledAxis_smul, scaledAxis_smul, scaledAxis_smul,
    add_mul, about_add]

/-- The shortest vector that a rotation turns by. -/
def logarithm (q : Rotation) : Fin 3 → ℝ :=
  if 0 ≤ (q : ℍ[ℝ]).re then
    (2 * Real.arccos (q : ℍ[ℝ]).re / len (vector q)) • vector q
  else -(2 * Real.arccos (-(q : ℍ[ℝ]).re) / len (vector q)) • vector q

theorem logarithm_about (n : Axis) {φ : ℝ} (nonneg : 0 ≤ φ) (short : φ < Real.pi) :
    logarithm (about n φ) = φ • (n : Fin 3 → ℝ) := by
  have cosine : 0 ≤ Real.cos (φ / 2) :=
    Real.cos_nonneg_of_neg_pi_div_two_le_of_le (by linarith) (by linarith)
  have sine : 0 ≤ Real.sin (φ / 2) :=
    Real.sin_nonneg_of_nonneg_of_le_pi (by linarith) (by linarith)
  have angle : 2 * Real.arccos (Real.cos (φ / 2)) = φ := by
    rw [Real.arccos_cos (by linarith) (by linarith)]
    ring
  have chosen : logarithm (about n φ) =
      (2 * Real.arccos (Real.cos (φ / 2)) / len (vector (about n φ))) • vector (about n φ) :=
    if_pos cosine
  rw [chosen, angle, vector_about, len_smul_axis, abs_of_nonneg sine, smul_smul]
  by_cases zero : φ = 0
  · simp [zero]
  · have positive : 0 < φ := lt_of_le_of_ne nonneg (Ne.symm zero)
    have apart : Real.sin (φ / 2) ≠ 0 :=
      (Real.sin_pos_of_pos_of_lt_pi (by linarith) (by linarith)).ne'
    rw [div_mul_cancel₀ _ apart]

theorem logarithm_scaledAxis {v : Fin 3 → ℝ} (short : len v < Real.pi) :
    logarithm (scaledAxis v) = v := by
  obtain ⟨n, axis⟩ := exists_axis v
  have angle : scaledAxis v = about n (len v) := by
    rw [← scaledAxis_smul, ← axis]
  rw [angle, logarithm_about n (len_nonneg v) short, ← axis]

/-- The turn at constant speed from one rotation to another. -/
def slerp (q r : Rotation) (s : ℝ) : Rotation := q * scaledAxis (s • logarithm (q⁻¹ * r))

theorem slerp_mul_left (p q r : Rotation) (s : ℝ) :
    slerp (p * q) (p * r) s = p * slerp q r s := by
  rw [slerp, slerp, mul_inv_rev, mul_assoc q⁻¹, inv_mul_cancel_left, mul_assoc]

theorem slerp_scaledAxis (q : Rotation) {v : Fin 3 → ℝ} (short : len v < Real.pi) (s : ℝ) :
    slerp q (q * scaledAxis v) s = q * scaledAxis (s • v) := by
  rw [slerp, inv_mul_cancel_left, logarithm_scaledAxis short]

end

end LivoxMid360.Foundation.UnitQuaternions
