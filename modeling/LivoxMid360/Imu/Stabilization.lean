/- digest: Estimator, history and placement together, and the laws of unit quaternions. -/

import LivoxMid360.Foundation.UnitQuaternions
import LivoxMid360.Imu.HistoryLookup

set_option autoImplicit false
set_option relaxedAutoImplicit false

namespace LivoxMid360.Imu.Stabilization

open Foundation.RustOutcome
open Foundation.UnitQuaternions
open Encoder.Vectors
open Attitude AttitudeEstimator

universe u

section Bindings

variable {K Q : Type} [Field K] [LinearOrder K] {ε : Type u}

/-- An `AttitudeEstimator` and an `OrientationHistory`, as a caller of the bindings holds them. -/
structure Stabilizer (K Q : Type) where
  estimator : AttitudeEstimator K Q
  history : OrientationHistory Q

/-- The calls that change them; `push` stores the current orientation of the estimator. -/
inductive Event (K : Type)
  | update (r : ImuReading K)
  | push (ts : UInt64)

namespace Stabilizer

def new (glam : Glam K Q) (kp ki : K) (maxLen : Nat) : Stabilizer K Q :=
  ⟨withGains glam kp ki, .new maxLen⟩

def handle (glam : Glam K Q) (self : Stabilizer K Q) : Event K → Stabilizer K Q
  | .update r => { self with estimator := self.estimator.update glam r }
  | .push ts => { self with history := self.history.push (ts, self.estimator.q) }

end Stabilizer

/-- A vector of the world in the axes of the viewer, `(x, z, -y)`. -/
def viewer (pw : Vec3 K) : Vec3 K := ![pw 0, pw 2, -pw 1]

def world (v : Vec3 K) : Vec3 K := ![v 0, -v 2, v 1]

def place (glam : Glam K Q) (q : Q) (p : Vec3 K) : Vec3 K := viewer (glam.rotate q p)

/-- The positions that `Cloud.add` of the bindings stores for the points of one packet. -/
def Stabilizer.add (glam : Glam K Q) (profile : Profile) (self : Stabilizer K Q)
    (points : List (Vec3 K)) (ts : UInt64) : Outcome ε (List (Vec3 K)) := do
  let q ← self.history.orientationAt glam.toSlerp profile ts
  return points.map (place glam q)

end Bindings

section Laws

variable {K Q : Type} [Field K] {glam : Glam K Q} {h : Q}

/-- The laws of unit quaternions that the results rest on, in exact arithmetic. -/
structure Lawful (glam : Glam K Q) : Prop where
  mul_assoc : ∀ p q r, glam.mul (glam.mul p q) r = glam.mul p (glam.mul q r)
  mul_identity : ∀ q, glam.mul q glam.identity = q
  normalize : ∀ q, glam.normalize q = q
  rotate_mul : ∀ p q v, glam.rotate (glam.mul p q) v = glam.rotate p (glam.rotate q v)
  rotate_conjugate : ∀ q v, glam.rotate (glam.conjugate q) (glam.rotate q v) = v
  conjugate_rotate : ∀ q v, glam.rotate q (glam.rotate (glam.conjugate q) v) = v
  dot_rotate : ∀ q v w, dot (glam.rotate q v) (glam.rotate q w) = dot v w
  slerp_mul : ∀ p q r s, glam.slerp (glam.mul p q) (glam.mul p r) s = glam.mul p (glam.slerp q r s)

/-- A turn about the vertical axis. -/
def Level (glam : Glam K Q) (h : Q) : Prop := glam.rotate h ![0, 0, 1] = ![0, 0, 1]

theorem Lawful.conjugate_mul (lawful : Lawful glam) (p q : Q) (v : Vec3 K) :
    glam.rotate (glam.conjugate (glam.mul p q)) v =
      glam.rotate (glam.conjugate q) (glam.rotate (glam.conjugate p) v) := by
  have turned := lawful.rotate_mul p q (glam.rotate (glam.conjugate (glam.mul p q)) v)
  rw [lawful.conjugate_rotate] at turned
  conv_rhs => rw [turned]
  rw [lawful.rotate_conjugate, lawful.rotate_conjugate]

theorem Lawful.conjugate_level (lawful : Lawful glam) (level : Level glam h) :
    glam.rotate (glam.conjugate h) ![0, 0, 1] = ![0, 0, 1] := by
  have back := lawful.rotate_conjugate h ![0, 0, 1]
  rwa [level] at back

theorem Lawful.predictedUp_mul (lawful : Lawful glam) (level : Level glam h) (q : Q) :
    glam.rotate (glam.conjugate (glam.mul h q)) ![0, 0, 1] =
      glam.rotate (glam.conjugate q) ![0, 0, 1] := by
  rw [lawful.conjugate_mul, lawful.conjugate_level level]

theorem dot_vertical (v : Vec3 K) : dot v ![0, 0, 1] = v 2 := by
  change v 0 * 0 + v 1 * 0 + v 2 * 1 = v 2
  rw [mul_zero, mul_zero, mul_one, add_zero, zero_add]

theorem Lawful.height (lawful : Lawful glam) (level : Level glam h) (v : Vec3 K) :
    glam.rotate h v 2 = v 2 := by
  have same := lawful.dot_rotate h v ![0, 0, 1]
  rwa [level, dot_vertical, dot_vertical] at same

end Laws

noncomputable section Exact

theorem scale_eq_smul (v : Vec3 ℝ) (s : ℝ) : scale v s = s • v := by
  ext k
  rw [scale_apply, Pi.smul_apply, smul_eq_mul, mul_comm]

def exact : Glam ℝ Rotation where
  identity := 1
  slerp := slerp
  conjugate q := q⁻¹
  mul q r := q * r
  normalize q := q
  fromScaledAxis := scaledAxis
  rotate := turn
  length := len

theorem exact_lawful : Lawful exact where
  mul_assoc := mul_assoc
  mul_identity := mul_one
  normalize _ := rfl
  rotate_mul := turn_mul
  rotate_conjugate := turn_inv_turn
  conjugate_rotate := turn_turn_inv
  dot_rotate := dot_turn
  slerp_mul := slerp_mul_left

def quarter : Rotation := about upward (Real.pi / 2)

theorem quarter_level : Level exact quarter := turn_about_self upward _

end Exact

end LivoxMid360.Imu.Stabilization
