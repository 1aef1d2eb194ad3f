/- digest: Inner and vector products over any commutative ring. -/

import LivoxMid360.Encoder.Vectors
import Mathlib.Tactic.LinearCombination
import Mathlib.Tactic.Ring

set_option autoImplicit false
set_option relaxedAutoImplicit false

namespace LivoxMid360.Encoder.VectorAlgebra

open Vectors

universe u

variable {K : Type u} [CommRing K]

theorem dot_add (a u v : Vec3 K) : dot a (add u v) = dot a u + dot a v := by
  rw [dot, dot, dot, Vectors.add_apply, Vectors.add_apply, Vectors.add_apply]
  ring

theorem dot_scale_left (a b : Vec3 K) (c : K) : dot (scale a c) b = c * dot a b := by
  simp only [dot, scale_apply]
  ring

theorem cross_zero (a b : Vec3 K) : cross a b 0 = a 1 * b 2 - a 2 * b 1 := rfl

theorem cross_one (a b : Vec3 K) : cross a b 1 = a 2 * b 0 - a 0 * b 2 := rfl

theorem cross_two (a b : Vec3 K) : cross a b 2 = a 0 * b 1 - a 1 * b 0 := rfl

theorem dot_cross_left (a b : Vec3 K) : dot a (cross a b) = 0 := by
  rw [dot, cross_zero, cross_one, cross_two]
  ring

theorem dot_cross_right (a b : Vec3 K) : dot (cross a b) b = 0 := by
  rw [dot, cross_zero, cross_one, cross_two]
  ring

theorem dot_cross_cross (a b : Vec3 K) :
    dot (cross a b) (cross a b) = dot a a * dot b b - dot a b * dot a b := by
  rw [dot, dot, dot, dot, cross_zero, cross_one, cross_two]
  ring

/-- The double product with the second factor. -/
theorem dot_cross_cross_self (a b : Vec3 K) :
    dot a (cross (cross a b) b) = dot a b * dot a b - dot a a * dot b b := by
  rw [dot, dot, dot, dot]
  simp only [cross_zero, cross_one, cross_two]
  ring

theorem cross_add (a u v : Vec3 K) : cross a (add u v) = add (cross a u) (cross a v) := by
  ext k
  rw [Vectors.add_apply]
  fin_cases k
  · change a 1 * add u v 2 - a 2 * add u v 1 = a 1 * u 2 - a 2 * u 1 + (a 1 * v 2 - a 2 * v 1)
    rw [Vectors.add_apply, Vectors.add_apply]
    ring
  · change a 2 * add u v 0 - a 0 * add u v 2 = a 2 * u 0 - a 0 * u 2 + (a 2 * v 0 - a 0 * v 2)
    rw [Vectors.add_apply, Vectors.add_apply]
    ring
  · change a 0 * add u v 1 - a 1 * add u v 0 = a 0 * u 1 - a 1 * u 0 + (a 0 * v 1 - a 1 * v 0)
    rw [Vectors.add_apply, Vectors.add_apply]
    ring

theorem cross_scale (a u : Vec3 K) (s : K) : cross a (scale u s) = scale (cross a u) s := by
  ext k
  rw [scale_apply]
  fin_cases k
  · change a 1 * scale u s 2 - a 2 * scale u s 1 = (a 1 * u 2 - a 2 * u 1) * s
    rw [scale_apply, scale_apply]
    ring
  · change a 2 * scale u s 0 - a 0 * scale u s 2 = (a 2 * u 0 - a 0 * u 2) * s
    rw [scale_apply, scale_apply]
    ring
  · change a 0 * scale u s 1 - a 1 * scale u s 0 = (a 0 * u 1 - a 1 * u 0) * s
    rw [scale_apply, scale_apply]
    ring

theorem scale_cross (a u : Vec3 K) (s : K) : cross (scale a s) u = scale (cross a u) s := by
  ext k
  rw [scale_apply]
  fin_cases k
  · change scale a s 1 * u 2 - scale a s 2 * u 1 = (a 1 * u 2 - a 2 * u 1) * s
    rw [scale_apply, scale_apply]
    ring
  · change scale a s 2 * u 0 - scale a s 0 * u 2 = (a 2 * u 0 - a 0 * u 2) * s
    rw [scale_apply, scale_apply]
    ring
  · change scale a s 0 * u 1 - scale a s 1 * u 0 = (a 0 * u 1 - a 1 * u 0) * s
    rw [scale_apply, scale_apply]
    ring

/-- Two quarter turns about an axis turn a perpendicular vector round. -/
theorem cross_cross {n u : Vec3 K} (unit : dot n n = 1) (apart : dot n u = 0) :
    cross n (cross n u) = scale u (-1) := by
  rw [dot] at unit apart
  ext k
  rw [scale_apply]
  fin_cases k
  · change n 1 * (n 0 * u 1 - n 1 * u 0) - n 2 * (n 2 * u 0 - n 0 * u 2) = u 0 * -1
    linear_combination n 0 * apart - u 0 * unit
  · change n 2 * (n 1 * u 2 - n 2 * u 1) - n 0 * (n 0 * u 1 - n 1 * u 0) = u 1 * -1
    linear_combination n 1 * apart - u 1 * unit
  · change n 0 * (n 2 * u 0 - n 0 * u 2) - n 1 * (n 1 * u 2 - n 2 * u 1) = u 2 * -1
    linear_combination n 2 * apart - u 2 * unit

theorem volume_scale (a b c : Vec3 K) (r s t : K) :
    dot (cross (scale a r) (scale b s)) (scale c t) = r * s * t * dot (cross a b) c := by
  simp only [dot, cross, scale_apply, Matrix.cons_val]
  ring

end LivoxMid360.Encoder.VectorAlgebra
