/- digest: The principal axes are the directions of largest and smallest variance, up to what the
rotations leave. -/

import LivoxMid360.Encoder.JacobiAccuracy
import LivoxMid360.Encoder.Shape
import LivoxMid360.Encoder.TightFrames
import LivoxMid360.Foundation.QuadraticForms

set_option autoImplicit false
set_option relaxedAutoImplicit false

namespace LivoxMid360.Encoder.PrincipalVariance

open Foundation.RustOutcome Foundation.PlaneRotations Foundation.QuadraticForms
open Vectors PrincipalAxes Encode AxisFrames TightFrames JacobiRotations JacobiAccuracy
open Matrix (of mulVec)

universe u

section Variance

variable {K : Type} [Field K]

def variance (points : List (Vec3 K)) (direction : Vec3 K) : K :=
  (points.map fun p => dot (sub p (meanOf points)) direction ^ 2).sum / (points.length : K)

theorem covarianceOf_isSymm (points : List (Vec3 K)) (mean : Vec3 K) :
    (of (covarianceOf points mean)).IsSymm := by
  ext i j
  rw [Matrix.transpose_apply, Matrix.of_apply, Matrix.of_apply, covarianceOf_apply,
    covarianceOf_apply]
  exact congrArg (List.foldl · 0 points)
    (funext fun sum => funext fun p => by rw [mul_comm (sub p mean j)])

theorem form_covarianceOf (points : List (Vec3 K)) (direction : Vec3 K) :
    form (of (covarianceOf points (meanOf points))) direction = variance points direction := by
  have square (p : Vec3 K) : dot (sub p (meanOf points)) direction ^ 2 =
      ∑ i, ∑ j, sub p (meanOf points) i * sub p (meanOf points) j *
        (direction i * direction j) := by
    simp only [dot, Fin.sum_univ_three]
    ring
  have entry (i j : Fin 3) : of (covarianceOf points (meanOf points)) i j *
      (direction i * direction j) = (points.map fun p => sub p (meanOf points) i * sub p (meanOf points) j *
        (direction i * direction j)).sum / (points.length : K) := by
    rw [Matrix.of_apply, Shape.covarianceOf_eq_sum_div, List.sum_map_mul_right]
    ring
  rw [form_eq_sum, variance]
  simp only [entry, square, Fin.sum_univ_three, List.sum_map_add]
  ring

end Variance

section Frame

variable {K : Type} [Field K] [LinearOrder K]

theorem sortedAxes_order {ε : Type u} [IsStrictOrderedRing K] {values : Vec3 K}
    {vectors axes : Mat3 K} (columns : OrthonormalColumns (of vectors))
    (returned : (sortedAxes values vectors : Outcome ε (Mat3 K)) = .ok axes) :
    Orthonormal axes ∧ ∃ (order : Fin 3 → Fin 3) (sign : Vec3 K), Function.Injective order ∧
      (∀ k, sign k * sign k = 1) ∧ (∀ k, axes k = scale (column vectors (order k)) (sign k)) ∧
      Antitone fun k => values (order k) := by
  obtain ⟨order, x, y, z, sorted, hx, hy, hz, rfl⟩ := sortedAxes_cases returned
  obtain ⟨sign, unit, signed⟩ := handed_axes hx hy hz
  have distinct := order_injective (sortBy_perm sorted)
  have ordered := order_antitone (sortBy_perm sorted)
    (sortBy_pairwise (fun a b => unwrap_partialCmp (values b) (values a)) sorted)
  exact ⟨orthonormal_of_signed columns distinct unit signed, _, sign, distinct, unit, signed,
    ordered⟩

variable [IsStrictOrderedRing K] {trig : Trig K} {matrix : Mat3 K}

/-- Along a unit vector the matrix has no value beyond those that the vector meets, up to what
the rotations leave. -/
theorem form_between (turns : Turns trig) (symmetric : (of matrix).IsSymm) {e : K} (nonneg : 0 ≤ e)
    (left : offDiagonal (of (working trig matrix 32).1) ≤ e ^ 2) {u : Vec3 K}
    (unit : dot u u = 1) (bottom top : K)
    (met : ∀ i, dot (column (jacobiEigen trig matrix).2 i) u ≠ 0 →
      bottom ≤ (jacobiEigen trig matrix).1 i ∧ (jacobiEigen trig matrix).1 i ≤ top) :
    bottom - e ≤ form (of matrix) u ∧ form (of matrix) u ≤ top + e := by
  have inv := inv_working turns symmetric 32
  have coordinate (i : Fin 3) : ((of (working trig matrix 32).2).transpose.mulVec u) i =
      dot (column (jacobiEigen trig matrix).2 i) u := by
    rw [dot_eq_dotProduct]
    rfl
  have length : (of (working trig matrix 32).2).transpose.mulVec u ⬝ᵥ
      (of (working trig matrix 32).2).transpose.mulVec u = 1 := by
    rw [dotProduct_frame inv.orthogonal, ← dot_eq_dotProduct, unit]
  have low := le_form nonneg left fun i present => (met i (coordinate i ▸ present)).1
  have high := form_le nonneg left fun i present => (met i (coordinate i ▸ present)).2
  rw [length, mul_one] at low high
  rw [← inv.decomposed, form_frame]
  exact ⟨low, high⟩

/-- The variances along the axes decrease; no direction has more than the first or less than the
third, and none beside one of these more or less than the second, up to what the rotations
leave off the diagonal. -/
theorem pca_extremal {ε : Type u} (turns : Turns trig) (cloud : List (Vec3 K)) {e : K}
    (nonneg : 0 ≤ e) (stopped : 6 * tolerance (covarianceOf cloud (meanOf cloud)) ^ 2 ≤ e ^ 2)
    (turned : (2 / 3) ^ 32 * offDiagonal (of (covarianceOf cloud (meanOf cloud))) ≤ e ^ 2) :
    ∃ axes, (pca trig cloud : Outcome ε (Vec3 K × Mat3 K)) = .ok (meanOf cloud, axes) ∧
      Orthonormal axes ∧ (Antitone fun k => variance cloud (axes k)) ∧
      ∀ u, dot u u = 1 →
        variance cloud (axes 2) - e ≤ variance cloud u ∧
        variance cloud u ≤ variance cloud (axes 0) + e ∧
        (dot (axes 0) u = 0 → variance cloud u ≤ variance cloud (axes 1) + e) ∧
        (dot (axes 2) u = 0 → variance cloud (axes 1) - e ≤ variance cloud u) := by
  have symmetric := covarianceOf_isSymm cloud (meanOf cloud)
  obtain ⟨columns, along⟩ := jacobiEigen_inColumns turns symmetric
  have left := (offDiagonal_working turns symmetric 32).trans (max_le stopped turned)
  obtain ⟨axes, sorted⟩ := sortedAxes_total (ε := ε)
    (jacobiEigen trig (covarianceOf cloud (meanOf cloud))).1
    (jacobiEigen trig (covarianceOf cloud (meanOf cloud))).2
  obtain ⟨frame, order, sign, distinct, unit, signed, ordered⟩ := sortedAxes_order columns sorted
  have spread (k : Fin 3) : variance cloud (axes k) =
      (jacobiEigen trig (covarianceOf cloud (meanOf cloud))).1 (order k) := by
    have scaled : axes k = sign k •
        column (jacobiEigen trig (covarianceOf cloud (meanOf cloud))).2 (order k) := by
      ext row
      rw [signed, scale_apply, mul_comm]
      rfl
    rw [← form_covarianceOf, scaled, form_smul, unit, one_mul, along, inColumns_apply_self]
    rfl
  have named (i : Fin 3) : ∃ k, order k = i := Finite.surjective_of_injective distinct i
  -- beside an axis is beside its column, whatever the sign of the axis
  have hidden {k : Fin 3} {u : Vec3 K} (beside : dot (axes k) u = 0) :
      dot (column (jacobiEigen trig (covarianceOf cloud (meanOf cloud))).2 (order k)) u = 0 := by
    have turnedBack := dot_scale
      (column (jacobiEigen trig (covarianceOf cloud (meanOf cloud))).2 (order k)) u (sign k) 1
    rw [← signed, scale_one, beside, mul_one] at turnedBack
    have nonzero : sign k ≠ 0 := left_ne_zero_of_mul_eq_one (unit k)
    exact (mul_eq_zero.mp turnedBack.symm).resolve_left nonzero
  refine ⟨axes, ?_, frame, ?_, ?_⟩
  · rw [pca, pcaWith]
    exact congrArg (· >>= _) sorted
  · simpa only [spread] using ordered
  intro u length
  simp only [spread]
  -- The vector meets the columns from one place in the order to another.
  have between (first last : Fin 3)
      (met : ∀ k, dot (column (jacobiEigen trig (covarianceOf cloud (meanOf cloud))).2 (order k)) u ≠
        0 → first ≤ k ∧ k ≤ last) :
      (jacobiEigen trig (covarianceOf cloud (meanOf cloud))).1 (order last) - e ≤ variance cloud u ∧
        variance cloud u ≤
          (jacobiEigen trig (covarianceOf cloud (meanOf cloud))).1 (order first) + e := by
    rw [← form_covarianceOf]
    refine form_between turns symmetric nonneg left length _ _ fun i present => ?_
    obtain ⟨k, rfl⟩ := named i
    obtain ⟨after, before⟩ := met k present
    exact ⟨ordered before, ordered after⟩
  obtain ⟨least, most⟩ := between 0 2 fun k _ => ⟨Fin.zero_le k, Fin.le_last k⟩
  refine ⟨least, most, fun beside => ?_, fun beside => ?_⟩
  · refine (between 1 2 fun k present => ⟨?_, Fin.le_last k⟩).2
    exact Fin.one_le_of_ne_zero fun first => present (first ▸ hidden beside)
  · refine (between 0 1 fun k present => ⟨Fin.zero_le k, ?_⟩).1
    have early : ∀ k : Fin 3, k ≠ 2 → k ≤ 1 := by decide
    exact early k fun last => present (last ▸ hidden beside)

end Frame

noncomputable def cross : List (Vec3 ℝ) := [![2, 0, 0], ![-2, 0, 0], ![0, 1, 0], ![0, -1, 0]]

theorem third_cross (a b c : ℝ) : ![a, b, c] 2 = c := rfl

theorem covarianceOf_cross : covarianceOf cross (meanOf cross) =
    fun i j => if i = j then ![2, 1 / 2, 0] i else 0 := by
  have centre : meanOf cross = fun _ => 0 := by
    ext k
    rw [meanOf_apply]
    fin_cases k <;> norm_num [cross]
  ext i j
  rw [covarianceOf_apply, centre]
  fin_cases i <;> fin_cases j <;> norm_num [cross, sub, third_cross]

theorem pca_extremal_cross : ∃ axes,
    (pca realTrig cross : Outcome Unit (Vec3 ℝ × Mat3 ℝ)) = .ok (meanOf cross, axes) ∧
      ∀ u, dot u u = 1 → variance cross u ≤ variance cross (axes 0) + 1 / 10 ^ 12 := by
  have stopped : 6 * tolerance (covarianceOf cross (meanOf cross)) ^ 2 ≤
      ((1 : ℝ) / 10 ^ 12) ^ 2 := by
    rw [covarianceOf_cross, tolerance]
    norm_num [third_cross]
  have turned : (2 / 3) ^ 32 * offDiagonal (of (covarianceOf cross (meanOf cross))) ≤
      ((1 : ℝ) / 10 ^ 12) ^ 2 := by
    have diagonal : offDiagonal (of (covarianceOf cross (meanOf cross))) = 0 := by
      rw [covarianceOf_cross]
      refine Finset.sum_eq_zero fun i _ => Finset.sum_eq_zero fun j member => ?_
      rw [Matrix.of_apply, if_neg (Finset.ne_of_mem_erase member).symm, sq, mul_zero]
    rw [diagonal, mul_zero]
    positivity
  obtain ⟨axes, found, -, -, bounds⟩ :=
    pca_extremal (ε := Unit) realTrig_turns cross (by positivity) stopped turned
  exact ⟨axes, found, fun u length => (bounds u length).2.1⟩

end LivoxMid360.Encoder.PrincipalVariance
