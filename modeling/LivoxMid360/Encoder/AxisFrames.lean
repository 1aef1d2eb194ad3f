/- digest: The axes of a cloud are orthonormal, whatever the angles of the rotations. -/

import LivoxMid360.Encoder.PrincipalAxes
import LivoxMid360.Foundation.PlaneRotations
import Mathlib.Algebra.BigOperators.Fin
import Mathlib.Data.List.GetD
import Mathlib.Data.List.Perm.Basic
import Mathlib.Tactic.Ring

set_option autoImplicit false
set_option relaxedAutoImplicit false

namespace LivoxMid360.Encoder.AxisFrames

open Foundation.RustOutcome Foundation.PlaneRotations
open Vectors PrincipalAxes
open Matrix (of)

universe u

section Sorting

variable {ε : Type u} {α : Type} {compare : α → α → Outcome ε Ordering}

theorem insertBack_perm {x : α} {sorted out : List α}
    (inserted : insertBack compare x sorted = .ok out) : out.Perm (x :: sorted) := by
  induction sorted generalizing out with
  | nil =>
    cases inserted
    exact .refl [x]
  | cons y ys ih =>
    rw [insertBack] at inserted
    obtain ⟨order, _, inserted⟩ := Outcome.bind_eq_ok.mp inserted
    by_cases less : order = .lt
    · rw [if_pos less] at inserted
      obtain ⟨rest, moved, inserted⟩ := Outcome.bind_eq_ok.mp inserted
      cases inserted
      exact ((ih moved).cons y).trans (.swap x y ys)
    · rw [if_neg less] at inserted
      cases inserted
      exact .refl _

theorem insertAll_perm {xs start out : List α}
    (done : xs.foldlM (fun sorted x => insertBack compare x sorted) start = .ok out) :
    out.Perm (xs ++ start) := by
  induction xs generalizing start with
  | nil =>
    cases done
    exact .refl _
  | cons x xs ih =>
    rw [List.foldlM_cons] at done
    obtain ⟨next, inserted, done⟩ := Outcome.bind_eq_ok.mp done
    exact (ih done).trans (((insertBack_perm inserted).append_left xs).trans List.perm_middle)

theorem sortBy_perm {xs out : List α} (sorted : sortBy compare xs = .ok out) : out.Perm xs := by
  obtain ⟨backwards, done, sorted⟩ := Outcome.bind_eq_ok.mp sorted
  cases sorted
  have whole := insertAll_perm done
  rw [List.append_nil] at whole
  exact (List.reverse_perm backwards).trans whole

theorem order_injective {order : List (Fin 3)} (sorted : order.Perm [0, 1, 2]) :
    Function.Injective fun i : Fin 3 => order.getD i.val 0 := by
  have size : order.length = 3 := sorted.length_eq
  have distinct : order.Nodup := sorted.nodup_iff.mpr (by decide)
  intro i j same
  have hi : i.val < order.length := i.isLt.trans_eq size.symm
  have hj : j.val < order.length := j.isLt.trans_eq size.symm
  simp only [List.getD_eq_getElem _ _ hi, List.getD_eq_getElem _ _ hj] at same
  exact Fin.ext ((distinct.getElem_inj_iff).mp same)

end Sorting

section Frames

variable {K : Type} [CommRing K]

def Orthonormal (axes : Mat3 K) : Prop := ∀ i j, dot (axes i) (axes j) = if i = j then 1 else 0

def column (m : Mat3 K) (j : Fin 3) : Vec3 K := fun row => m row j

theorem dot_eq_dotProduct (a b : Vec3 K) : dot a b = dotProduct a b := by
  rw [dot, dotProduct, Fin.sum_univ_three]

theorem dot_scale (a b : Vec3 K) (s t : K) :
    dot (scale a s) (scale b t) = s * t * dot a b := by
  simp only [dot, scale_apply]
  ring

theorem scale_one (a : Vec3 K) : scale a 1 = a := by
  ext k
  rw [scale_apply, mul_one]

theorem scale_scale (a : Vec3 K) (s t : K) : scale (scale a s) t = scale a (s * t) := by
  ext k
  rw [scale_apply, scale_apply, scale_apply, mul_assoc]

theorem handed_signed (axis : Vec3 K) {sign : K} (unit : sign * sign = 1) (mirrored : Prop)
    [Decidable mirrored] :
    ∃ sign', sign' * sign' = 1 ∧
      (if mirrored then scale (scale axis sign) (-1) else scale axis sign) =
        scale axis sign' := by
  split
  · exact ⟨sign * -1, by linear_combination unit, scale_scale axis sign (-1)⟩
  · exact ⟨sign, unit, rfl⟩

/-- Columns of an orthonormal matrix, each under a sign, are the rows of a frame. -/
theorem orthonormal_of_signed {axes vectors : Mat3 K} {order : Fin 3 → Fin 3} {sign : Vec3 K}
    (columns : OrthonormalColumns (of vectors)) (distinct : Function.Injective order)
    (unit : ∀ i, sign i * sign i = 1)
    (signed : ∀ i, axes i = scale (column vectors (order i)) (sign i)) :
    Orthonormal axes := by
  intro i j
  have inner : dot (column vectors (order i)) (column vectors (order j)) =
      if order i = order j then 1 else 0 := by
    rw [dot_eq_dotProduct]
    exact columns.dotProduct_eq (order i) (order j)
  rw [signed, signed, dot_scale, inner]
  by_cases same : i = j
  · rw [if_pos (congrArg order same), if_pos same, mul_one, same, unit]
  · rw [if_neg (mt (@distinct i j) same), if_neg same, mul_zero]

end Frames

section Eigenvectors

variable {K : Type} [Field K] [LinearOrder K]

omit [LinearOrder K] in
theorem of_identity : of (fun i j : Fin 3 => if i = j then (1 : K) else 0) = 1 := by
  ext i j
  rw [Matrix.one_apply]
  rfl

omit [LinearOrder K] in
theorem rotateColumns_eq (p q : Fin 3) (sin cos : K) (m : Mat3 K) :
    of (rotateColumns p q sin cos m) = of m * planeRotation p q sin cos := by
  ext k c
  rw [mul_planeRotation]
  rfl

theorem pivot_ne (a : Mat3 K) : (pivot a).1 ≠ (pivot a).2.1 := by
  have start : (0 : Fin 3) ≠ 1 := by decide
  have candidates : ∀ c ∈ [((0 : Fin 3), (1 : Fin 3)), (0, 2), (1, 2)], c.1 ≠ c.2 := by decide
  rw [pivot]
  apply List.foldlRecOn (motive := fun best : Fin 3 × Fin 3 × K => best.1 ≠ best.2.1)
  · exact start
  · intro best off c member
    dsimp only
    split
    · exact candidates c member
    · exact off

omit [LinearOrder K] in
theorem jacobiStep_orthonormal {trig : Trig K}
    (unit : ∀ angle, (trig.sinCos angle).1 ^ 2 + (trig.sinCos angle).2 ^ 2 = 1) {p q : Fin 3}
    (distinct : p ≠ q) {state : Mat3 K × Mat3 K} (columns : OrthonormalColumns (of state.2)) :
    OrthonormalColumns (of (jacobiStep trig p q state).2) := by
  rw [jacobiStep, rotateColumns_eq]
  exact columns.mul (planeRotation_orthonormal distinct (unit _))

theorem jacobiLoop_orthonormal {trig : Trig K}
    (unit : ∀ angle, (trig.sinCos angle).1 ^ 2 + (trig.sinCos angle).2 ^ 2 = 1) (tolerance : K)
    (fuel : Nat) {state : Mat3 K × Mat3 K} (columns : OrthonormalColumns (of state.2)) :
    OrthonormalColumns (of (jacobiLoop trig tolerance fuel state).2) := by
  induction fuel generalizing state with
  | zero => exact columns
  | succ fuel ih =>
    rw [jacobiLoop]
    dsimp only
    split
    · exact columns
    · exact ih (jacobiStep_orthonormal unit (pivot_ne state.1) columns)

/-- The eigenvectors stay orthonormal through all rotations. -/
theorem jacobiEigen_orthonormal {trig : Trig K}
    (unit : ∀ angle, (trig.sinCos angle).1 ^ 2 + (trig.sinCos angle).2 ^ 2 = 1)
    (matrix : Mat3 K) : OrthonormalColumns (of (jacobiEigen trig matrix).2) := by
  have start : OrthonormalColumns
      (of (matrix, fun i j : Fin 3 => if i = j then (1 : K) else 0).2) := by
    rw [of_identity]
    exact orthonormalColumns_one
  rw [jacobiEigen]
  exact jacobiLoop_orthonormal unit _ 32 start

end Eigenvectors

section Axes

variable {K : Type} [Field K] [LinearOrder K] {ε : Type u}

theorem fixSign_signed {axis out : Vec3 K} (fixed : (fixSign axis : Outcome ε (Vec3 K)) = .ok out) :
    ∃ sign, sign * sign = 1 ∧ out = scale axis sign := by
  obtain ⟨k, _, fixed⟩ := Outcome.bind_eq_ok.mp fixed
  by_cases negative : axis k < 0
  · rw [if_pos negative] at fixed
    cases fixed
    exact ⟨-1, by ring, rfl⟩
  · rw [if_neg negative] at fixed
    cases fixed
    exact ⟨1, one_mul 1, (scale_one axis).symm⟩

/-- What a sort, three signs and the handedness leave. -/
theorem sortedAxes_cases {values : Vec3 K} {vectors axes : Mat3 K}
    (returned : (sortedAxes values vectors : Outcome ε (Mat3 K)) = .ok axes) :
    ∃ (order : List (Fin 3)) (x y z : Vec3 K),
      (sortBy (fun a b => unwrap (FloatOps.partialCmp (values b) (values a))) [0, 1, 2] :
        Outcome ε (List (Fin 3))) = .ok order ∧
      (fixSign (column vectors (order.getD 0 0)) : Outcome ε (Vec3 K)) = .ok x ∧
      (fixSign (column vectors (order.getD 1 0)) : Outcome ε (Vec3 K)) = .ok y ∧
      (fixSign (column vectors (order.getD 2 0)) : Outcome ε (Vec3 K)) = .ok z ∧
      axes = ![x, y, if dot (cross x y) z < 0 then scale z (-1) else z] := by
  obtain ⟨order, sorted, returned⟩ := Outcome.bind_eq_ok.mp returned
  obtain ⟨x, hx, returned⟩ := Outcome.bind_eq_ok.mp returned
  obtain ⟨y, hy, returned⟩ := Outcome.bind_eq_ok.mp returned
  obtain ⟨z, hz, returned⟩ := Outcome.bind_eq_ok.mp returned
  cases returned
  exact ⟨order, x, y, z, sorted, hx, hy, hz, rfl⟩

theorem handed_axes {vectors : Mat3 K} {order : List (Fin 3)} {x y z : Vec3 K}
    (hx : (fixSign (column vectors (order.getD 0 0)) : Outcome ε (Vec3 K)) = .ok x)
    (hy : (fixSign (column vectors (order.getD 1 0)) : Outcome ε (Vec3 K)) = .ok y)
    (hz : (fixSign (column vectors (order.getD 2 0)) : Outcome ε (Vec3 K)) = .ok z) :
    ∃ sign : Vec3 K, (∀ i, sign i * sign i = 1) ∧
      ∀ i, (![x, y, if dot (cross x y) z < 0 then scale z (-1) else z] : Mat3 K) i =
        scale (column vectors (order.getD i.val 0)) (sign i) := by
  obtain ⟨sx, ux, rfl⟩ := fixSign_signed hx
  obtain ⟨sy, uy, rfl⟩ := fixSign_signed hy
  obtain ⟨sz, uz, rfl⟩ := fixSign_signed hz
  obtain ⟨sz', uz', third⟩ := handed_signed (column vectors (order.getD 2 0)) uz
    (dot (cross (scale (column vectors (order.getD 0 0)) sx)
        (scale (column vectors (order.getD 1 0)) sy))
      (scale (column vectors (order.getD 2 0)) sz) < 0)
  refine ⟨![sx, sy, sz'], ?_, ?_⟩
  · exact Fin.forall_fin_succ.mpr ⟨ux, Fin.forall_fin_two.mpr ⟨uy, uz'⟩⟩
  · exact Fin.forall_fin_succ.mpr ⟨rfl, Fin.forall_fin_two.mpr ⟨rfl, third⟩⟩

/-- Each axis is an eigenvector of its own, under some sign. -/
theorem sortedAxes_signed {values : Vec3 K} {vectors axes : Mat3 K}
    (returned : (sortedAxes values vectors : Outcome ε (Mat3 K)) = .ok axes) :
    ∃ (order : Fin 3 → Fin 3) (sign : Vec3 K), Function.Injective order ∧
      (∀ i, sign i * sign i = 1) ∧
      ∀ i, axes i = scale (column vectors (order i)) (sign i) := by
  obtain ⟨order, x, y, z, sorted, hx, hy, hz, rfl⟩ := sortedAxes_cases returned
  obtain ⟨sign, unit, signed⟩ := handed_axes hx hy hz
  exact ⟨fun i => order.getD i.val 0, sign, order_injective (sortBy_perm sorted), unit, signed⟩

theorem pcaWith_orthonormal {eigen : Mat3 K → Vec3 K × Mat3 K} {points : List (Vec3 K)}
    (columns : OrthonormalColumns (of (eigen (covarianceOf points (meanOf points))).2))
    {mean : Vec3 K} {axes : Mat3 K}
    (returned : (pcaWith eigen points : Outcome ε (Vec3 K × Mat3 K)) = .ok (mean, axes)) :
    Orthonormal axes := by
  obtain ⟨found, sorted, returned⟩ := Outcome.bind_eq_ok.mp returned
  cases returned
  obtain ⟨order, sign, distinct, unit, signed⟩ := sortedAxes_signed sorted
  exact orthonormal_of_signed columns distinct unit signed

end Axes

end LivoxMid360.Encoder.AxisFrames
