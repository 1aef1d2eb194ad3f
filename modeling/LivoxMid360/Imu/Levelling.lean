/- digest: At rest the accelerometer takes every tilt away but the one upside down. -/

import LivoxMid360.Encoder.TightFrames
import LivoxMid360.Encoder.VectorAlgebra
import LivoxMid360.Imu.IntegratedTime
import LivoxMid360.Imu.Stabilization
import Mathlib.Analysis.Convex.SpecificFunctions.Deriv
import Mathlib.Analysis.SpecialFunctions.Trigonometric.Bounds
import Mathlib.Analysis.SpecificLimits.Basic

set_option autoImplicit false
set_option relaxedAutoImplicit false

namespace LivoxMid360.Imu.Levelling

open Foundation.Transition (after after_concat)
open Foundation.UnitQuaternions (eq_zero_of_squares)
open Encoder Encoder.Vectors Encoder.VectorAlgebra
open Encoder.AxisFrames (scale_scale)
open Encoder.TightFrames (dot_scale_right)
open Attitude AttitudeEstimator IntegratedTime Stabilization

variable {Q : Type} {glam : Glam ℝ Q} {self : AttitudeEstimator ℝ Q} {a m n p u v : Vec3 ℝ}
  {φ dt : ℝ}

noncomputable section

/-- Lengths, and the turn about an axis of length one. -/
structure Spins (glam : Glam ℝ Q) : Prop where
  length : ∀ v, glam.length v = √(dot v v)
  turn : ∀ n φ v, dot n n = 1 → glam.rotate (glam.fromScaledAxis (scale n φ)) v =
    add (add (scale v (Real.cos φ)) (scale (cross n v) (Real.sin φ)))
      (scale n ((1 - Real.cos φ) * dot n v))

def predictedUp (glam : Glam ℝ Q) (self : AttitudeEstimator ℝ Q) : Vec3 ℝ :=
  glam.rotate (glam.conjugate self.q) ![0, 0, 1]

def measuredUp (glam : Glam ℝ Q) (a : Vec3 ℝ) : Vec3 ℝ := fun k => a k / glam.length a

/-- The angle between the two. -/
def tilt (glam : Glam ℝ Q) (self : AttitudeEstimator ℝ Q) (a : Vec3 ℝ) : ℝ :=
  Real.arccos (dot (measuredUp glam a) (predictedUp glam self))

/-- A sample of a sensor at rest, with an acceleration that the filter trusts. -/
structure AtRest (glam : Glam ℝ Q) (a : Vec3 ℝ) (r : ImuReading ℝ) : Prop where
  still : r.gyro = fun _ => 0
  gravity : r.acc = a
  trusted : 1 / 2 < glam.length a ∧ glam.length a < 2

theorem Spins.turn_back (spins : Spins glam) (lawful : Lawful glam) (unit : dot n n = 1)
    (apart : dot n u = 0) (φ : ℝ) :
    glam.rotate (glam.conjugate (glam.fromScaledAxis (scale n φ))) u =
      add (scale u (Real.cos φ)) (scale (cross n u) (-Real.sin φ)) := by
  have forth : glam.rotate (glam.fromScaledAxis (scale n φ))
      (add (scale u (Real.cos φ)) (scale (cross n u) (-Real.sin φ))) = u := by
    have still : dot n (add (scale u (Real.cos φ)) (scale (cross n u) (-Real.sin φ))) = 0 := by
      rw [dot_add, dot_scale_right, dot_scale_right, apart, dot_cross_left]
      ring
    rw [spins.turn n φ _ unit, still, cross_add, cross_scale, cross_scale, cross_cross unit apart]
    ext k
    simp only [Vectors.add_apply, scale_apply]
    linear_combination u k * Real.sin_sq_add_cos_sq φ
  have back := lawful.rotate_conjugate (glam.fromScaledAxis (scale n φ))
    (add (scale u (Real.cos φ)) (scale (cross n u) (-Real.sin φ)))
  rwa [forth] at back

theorem dot_nonneg (v : Vec3 ℝ) : 0 ≤ dot v v :=
  add_nonneg (add_nonneg (mul_self_nonneg _) (mul_self_nonneg _)) (mul_self_nonneg _)

theorem dot_up : dot (![0, 0, 1] : Vec3 ℝ) ![0, 0, 1] = 1 := by
  change (0 * 0 + 0 * 0 + 1 * 1 : ℝ) = 1
  norm_num

theorem Spins.turn_none (spins : Spins glam) (lawful : Lawful glam) (p : Vec3 ℝ) :
    glam.rotate (glam.conjugate (glam.fromScaledAxis fun _ => 0)) p = p := by
  have zero : (fun _ => 0 : Vec3 ℝ) = scale ![0, 0, 1] 0 := by
    ext k
    rw [scale_apply, mul_zero]
  have forth : glam.rotate (glam.fromScaledAxis fun _ => 0) p = p := by
    rw [zero, spins.turn _ _ _ dot_up, Real.cos_zero, Real.sin_zero]
    ext k
    simp only [Vectors.add_apply, scale_apply]
    ring
  have back := lawful.rotate_conjugate (glam.fromScaledAxis fun _ => 0) p
  rwa [forth] at back

/-- A correction by a share of the error takes that share of its sine off the angle. -/
theorem Spins.arccos_corrected (spins : Spins glam) (lawful : Lawful glam) (hm : dot m m = 1)
    (hp : dot p p = 1) {κ : ℝ} (nonneg : 0 ≤ κ) (share : κ ≤ 1) :
    Real.arccos (dot m (glam.rotate
        (glam.conjugate (glam.fromScaledAxis (scale (cross m p) κ))) p)) =
      Real.arccos (dot m p) - κ * Real.sin (Real.arccos (dot m p)) := by
  have squares : dot (cross m p) (cross m p) = 1 - dot m p ^ 2 := by
    rw [dot_cross_cross, hm, hp]
    ring
  have bound : dot m p ^ 2 ≤ 1 := by
    have := dot_nonneg (cross m p)
    linarith
  have cosine : Real.cos (Real.arccos (dot m p)) = dot m p :=
    Real.cos_arccos (neg_le_of_abs_le (abs_le_one_iff_mul_self_le_one.mpr (by linarith)))
      (le_of_abs_le (abs_le_one_iff_mul_self_le_one.mpr (by linarith)))
  have low := Real.arccos_nonneg (dot m p)
  have high := Real.arccos_le_pi (dot m p)
  generalize Real.arccos (dot m p) = θ at cosine low high
  have sine : 0 ≤ Real.sin θ := Real.sin_nonneg_of_nonneg_of_le_pi low high
  have error : dot (cross m p) (cross m p) = Real.sin θ * Real.sin θ := by
    rw [squares, ← cosine]
    linear_combination -Real.sin_sq_add_cos_sq θ
  -- a sine of zero leaves no axis to turn about, and nothing to correct
  rcases sine.eq_or_lt with none | apart
  · rw [← none, mul_zero] at error
    have flat : scale (cross m p) κ = fun _ => 0 := by
      rw [eq_zero_of_squares error]
      ext k
      rw [scale_apply, Pi.zero_apply, zero_mul]
    rw [flat, spins.turn_none lawful, ← none, mul_zero, sub_zero, ← cosine,
      Real.arccos_cos low high]
  · -- the axis of the correction, and the angle by which it turns
    have unit : dot (scale (cross m p) (1 / Real.sin θ)) (scale (cross m p) (1 / Real.sin θ)) =
        1 := by
      rw [dot_scale_left, dot_scale_right, error]
      field_simp
    have across : dot (scale (cross m p) (1 / Real.sin θ)) p = 0 := by
      rw [dot_scale_left, dot_cross_right, mul_zero]
    have turned : scale (cross m p) κ =
        scale (scale (cross m p) (1 / Real.sin θ)) (Real.sin θ * κ) := by
      rw [scale_scale, ← mul_assoc, one_div_mul_cancel apart.ne', one_mul]
    have corrected : dot m (glam.rotate
        (glam.conjugate (glam.fromScaledAxis (scale (cross m p) κ))) p) =
          Real.cos (θ - κ * Real.sin θ) := by
      rw [turned, spins.turn_back lawful unit across, dot_add, dot_scale_right, dot_scale_right,
        scale_cross, dot_scale_right, dot_cross_cross_self, hm, hp, Real.cos_sub, ← cosine,
        mul_comm κ]
      field_simp
      linear_combination -Real.sin (Real.sin θ * κ) * Real.sin_sq_add_cos_sq θ
    -- the share is at most one, so the correction never passes the measured vertical
    have short : κ * Real.sin θ ≤ θ := by
      calc κ * Real.sin θ ≤ 1 * Real.sin θ := mul_le_mul_of_nonneg_right share apart.le
        _ ≤ θ := (one_mul _).trans_le (Real.sin_le low)
    have positive : 0 ≤ κ * Real.sin θ := mul_nonneg nonneg apart.le
    rw [corrected, Real.arccos_cos (by linarith) (by linarith)]

theorem clampedDt_mem (prev ts : UInt64) :
    (1 / 10000 : ℝ) ≤ clampedDt prev ts ∧ (clampedDt prev ts : ℝ) ≤ 1 / 10 := by
  have least : ((100000 : Nat) : ℝ) ≤ clampedNs prev ts := Nat.cast_le.mpr (le_max_left _ _)
  have most : (clampedNs prev ts : ℝ) ≤ (100000000 : Nat) :=
    Nat.cast_le.mpr (max_le (by decide) (min_le_right _ _))
  rw [clampedDt_eq]
  push_cast at least most
  constructor <;> linarith

theorem dot_predictedUp (lawful : Lawful glam) (self : AttitudeEstimator ℝ Q) :
    dot (predictedUp glam self) (predictedUp glam self) = 1 :=
  (lawful.dot_rotate _ _ _).trans dot_up

theorem Spins.dot_measuredUp (spins : Spins glam) (trusted : 1 / 2 < glam.length a) :
    dot (measuredUp glam a) (measuredUp glam a) = 1 := by
  have positive : 0 < glam.length a := by linarith
  have squares : glam.length a * glam.length a = dot a a := by
    rw [spins.length, Real.mul_self_sqrt (dot_nonneg a)]
  change a 0 / glam.length a * (a 0 / glam.length a) + a 1 / glam.length a *
    (a 1 / glam.length a) + a 2 / glam.length a * (a 2 / glam.length a) = 1
  rw [div_mul_div_comm, div_mul_div_comm, div_mul_div_comm, ← add_div, ← add_div, squares, dot]
  rw [dot] at squares
  exact div_self (squares ▸ (mul_pos positive positive).ne')

theorem predictedUp_update (lawful : Lawful glam) {self : AttitudeEstimator ℝ Q}
    (noIntegral : self.ki = 0) {prev : UInt64} (clock : self.lastTs = some prev)
    {r : ImuReading ℝ} (rest : AtRest glam a r) :
    predictedUp glam (self.update glam r) =
      glam.rotate (glam.conjugate (glam.fromScaledAxis
        (scale (cross (measuredUp glam a) (predictedUp glam self))
          (self.kp * clampedDt prev r.ts)))) (predictedUp glam self) := by
  have rate : ((({ self with lastTs := some r.ts } : AttitudeEstimator ℝ Q).correct glam r.gyro
      r.acc (clampedDt prev r.ts)).1) =
        scale (cross (measuredUp glam a) (predictedUp glam self)) self.kp := by
    rw [AttitudeEstimator.correct, rest.still, rest.gravity]
    dsimp only
    rw [if_pos rest.trusted, noIntegral]
    ext k
    simp only [Vectors.add_apply, scale_apply, mul_zero, add_zero, zero_add]
    rfl
  -- with a silent gyroscope the only rotation is the correction
  have moved : (self.update glam r).q = glam.mul self.q (glam.fromScaledAxis
      (scale (cross (measuredUp glam a) (predictedUp glam self))
        (self.kp * clampedDt prev r.ts))) := by
    rw [AttitudeEstimator.update, clock]
    dsimp only
    rw [AttitudeEstimator.integrate]
    dsimp only
    rw [lawful.normalize, rate, scale_scale]
  rw [predictedUp, moved, lawful.conjugate_mul]
  rfl

theorem tilt_unset (glam : Glam ℝ Q) {self : AttitudeEstimator ℝ Q} (clock : self.lastTs = none)
    (r : ImuReading ℝ) (a : Vec3 ℝ) : tilt glam (self.update glam r) a = tilt glam self a := by
  rw [AttitudeEstimator.update, clock]
  rfl

/-- What one sample takes off the tilt. -/
theorem tilt_update (lawful : Lawful glam) (spins : Spins glam) {self : AttitudeEstimator ℝ Q}
    (noIntegral : self.ki = 0) (gain : 0 ≤ self.kp) (moderate : self.kp ≤ 10) {prev : UInt64}
    (clock : self.lastTs = some prev) {r : ImuReading ℝ} (rest : AtRest glam a r) :
    tilt glam (self.update glam r) a =
      tilt glam self a - self.kp * clampedDt prev r.ts * Real.sin (tilt glam self a) := by
  obtain ⟨least, most⟩ := clampedDt_mem prev r.ts
  rw [tilt, predictedUp_update lawful noIntegral clock rest]
  apply spins.arccos_corrected lawful (spins.dot_measuredUp rest.trusted.1)
    (dot_predictedUp lawful self)
  · exact mul_nonneg gain (by linarith)
  · calc self.kp * clampedDt prev r.ts ≤ 10 * (1 / 10) :=
        mul_le_mul moderate most (by linarith) (by norm_num)
      _ = 1 := by norm_num

@[simp] theorem update_kp (glam : Glam ℝ Q) (self : AttitudeEstimator ℝ Q) (r : ImuReading ℝ) :
    (self.update glam r).kp = self.kp := by
  rw [AttitudeEstimator.update]
  cases self.lastTs <;> rfl

@[simp] theorem update_ki (glam : Glam ℝ Q) (self : AttitudeEstimator ℝ Q) (r : ImuReading ℝ) :
    (self.update glam r).ki = self.ki := by
  rw [AttitudeEstimator.update]
  cases self.lastTs <;> rfl

theorem chord_le_sin {θ t : ℝ} (nonneg : 0 ≤ t) (below : t ≤ θ) (half : θ ≤ Real.pi) :
    Real.sin θ / θ * t ≤ Real.sin t := by
  rcases nonneg.eq_or_lt with rfl | positive
  · rw [mul_zero, Real.sin_zero]
  have some : 0 < θ := positive.trans_le below
  have within : t / θ ≤ 1 := (div_le_one some).mpr below
  -- the sine is concave on a half turn, so it lies above its chord
  have concave : (1 - t / θ) • Real.sin 0 + (t / θ) • Real.sin θ ≤
      Real.sin ((1 - t / θ) • 0 + (t / θ) • θ) :=
    strictConcaveOn_sin_Icc.concaveOn.2 ⟨le_rfl, Real.pi_pos.le⟩ ⟨some.le, half⟩ (by linarith)
      (div_nonneg nonneg some.le) (by ring)
  simp only [smul_eq_mul, mul_zero, zero_add, Real.sin_zero] at concave
  rw [div_mul_cancel₀ t some.ne'] at concave
  calc Real.sin θ / θ * t = t / θ * Real.sin θ := by ring
    _ ≤ Real.sin t := concave

/-- What a sample leaves of a tilt that is at most `θ`, at the gain `kp`. -/
def decay (kp θ : ℝ) : ℝ := 1 - kp / 10000 * (Real.sin θ / θ)

theorem decay_mem {kp θ : ℝ} (gain : 0 ≤ kp) (moderate : kp ≤ 10) (nonneg : 0 ≤ θ)
    (half : θ ≤ Real.pi) : 0 ≤ decay kp θ ∧ decay kp θ ≤ 1 := by
  have low : 0 ≤ Real.sin θ / θ := div_nonneg (Real.sin_nonneg_of_nonneg_of_le_pi nonneg half) nonneg
  have high : Real.sin θ / θ ≤ 1 := div_le_one_of_le₀ (Real.sin_le nonneg) nonneg
  have share : kp / 10000 * (Real.sin θ / θ) ≤ 1 / 1000 * 1 :=
    mul_le_mul (by linarith) high low (by norm_num)
  have some : 0 ≤ kp / 10000 * (Real.sin θ / θ) := mul_nonneg (by linarith) low
  rw [decay]
  constructor <;> linarith

theorem tilt_nonneg (glam : Glam ℝ Q) (self : AttitudeEstimator ℝ Q) (a : Vec3 ℝ) :
    0 ≤ tilt glam self a := Real.arccos_nonneg _

theorem tilt_le_pi (glam : Glam ℝ Q) (self : AttitudeEstimator ℝ Q) (a : Vec3 ℝ) :
    tilt glam self a ≤ Real.pi := Real.arccos_le_pi _

section Rest

variable (lawful : Lawful glam) (spins : Spins glam)

include lawful spins

theorem tilt_step {self : AttitudeEstimator ℝ Q} (noIntegral : self.ki = 0) (gain : 0 ≤ self.kp)
    (moderate : self.kp ≤ 10) {prev : UInt64} (clock : self.lastTs = some prev)
    {r : ImuReading ℝ} (rest : AtRest glam a r) {θ : ℝ} (below : tilt glam self a ≤ θ)
    (half : θ ≤ Real.pi) :
    tilt glam (self.update glam r) a ≤ tilt glam self a * decay self.kp θ := by
  have nonneg := tilt_nonneg glam self a
  have chord := chord_le_sin nonneg below half
  have sine : 0 ≤ Real.sin (tilt glam self a) :=
    Real.sin_nonneg_of_nonneg_of_le_pi nonneg (tilt_le_pi glam self a)
  have least : self.kp / 10000 ≤ self.kp * clampedDt prev r.ts := by
    rw [div_eq_mul_one_div]
    exact mul_le_mul_of_nonneg_left (clampedDt_mem prev r.ts).1 gain
  rw [tilt_update lawful spins noIntegral gain moderate clock rest, decay]
  have taken : self.kp / 10000 * (Real.sin θ / θ * tilt glam self a) ≤
      self.kp * clampedDt prev r.ts * Real.sin (tilt glam self a) :=
    (mul_le_mul_of_nonneg_left chord (by linarith)).trans (mul_le_mul_of_nonneg_right least sine)
  linarith

theorem tilt_after_set (self : AttitudeEstimator ℝ Q) (noIntegral : self.ki = 0)
    (gain : 0 ≤ self.kp) (moderate : self.kp ≤ 10) {prev : UInt64}
    (clock : self.lastTs = some prev) {readings : List (ImuReading ℝ)}
    (rest : ∀ r ∈ readings, AtRest glam a r) {θ : ℝ} (below : tilt glam self a ≤ θ)
    (half : θ ≤ Real.pi) :
    tilt glam (after (AttitudeEstimator.update glam) self readings) a ≤
      tilt glam self a * decay self.kp θ ^ readings.length := by
  induction readings generalizing self prev with
  | nil => exact (mul_one _).ge
  | cons r readings ih =>
    obtain ⟨here, others⟩ := List.forall_mem_cons.mp rest
    have nonneg := tilt_nonneg glam self a
    obtain ⟨low, high⟩ := decay_mem gain moderate (nonneg.trans below) half
    have step := tilt_step lawful spins noIntegral gain moderate clock here below half
    -- the tilt stays under the bound that gave the rate of decay
    have shrunk : tilt glam (self.update glam r) a ≤ θ := by
      calc tilt glam (self.update glam r) a ≤ tilt glam self a * decay self.kp θ := step
        _ ≤ tilt glam self a * 1 := mul_le_mul_of_nonneg_left high nonneg
        _ ≤ θ := (mul_one _).trans_le below
    have later := ih (self.update glam r) (by rwa [update_ki]) (by rwa [update_kp])
      (by rwa [update_kp]) (update_lastTs glam self r) others shrunk
    rw [update_kp] at later
    calc tilt glam (after (AttitudeEstimator.update glam) self (r :: readings)) a
        ≤ tilt glam (self.update glam r) a * decay self.kp θ ^ readings.length := later
      _ ≤ tilt glam self a * decay self.kp θ * decay self.kp θ ^ readings.length :=
          mul_le_mul_of_nonneg_right step (pow_nonneg low _)
      _ = tilt glam self a * decay self.kp θ ^ (r :: readings).length := by
          rw [List.length_cons, pow_succ]
          ring

theorem tilt_after {self : AttitudeEstimator ℝ Q} (noIntegral : self.ki = 0) (gain : 0 ≤ self.kp)
    (moderate : self.kp ≤ 10) {readings : List (ImuReading ℝ)}
    (rest : ∀ r ∈ readings, AtRest glam a r) :
    tilt glam (after (AttitudeEstimator.update glam) self readings) a ≤
      tilt glam self a * decay self.kp (tilt glam self a) ^ (readings.length - 1) := by
  have half := tilt_le_pi glam self a
  have nonneg := tilt_nonneg glam self a
  obtain ⟨low, high⟩ := decay_mem gain moderate nonneg half
  cases clock : self.lastTs with
  | some prev =>
    have bound := tilt_after_set lawful spins self noIntegral gain moderate clock rest le_rfl half
    refine bound.trans (mul_le_mul_of_nonneg_left ?_ nonneg)
    exact pow_le_pow_of_le_one low high (Nat.sub_le _ _)
  -- the first reading only sets the clock, so one factor is missing
  | none =>
    cases readings with
    | nil => exact (mul_one _).ge
    | cons r readings =>
      obtain ⟨-, others⟩ := List.forall_mem_cons.mp rest
      have same := tilt_unset glam clock r a
      have bound := tilt_after_set lawful spins (self.update glam r)
        (by rwa [update_ki]) (by rwa [update_kp]) (by rwa [update_kp])
        (update_lastTs glam self r) others le_rfl (tilt_le_pi glam _ a)
      rw [update_kp, same] at bound
      exact bound

/-- At rest with a silent gyroscope and without the integral term, the angle between the
estimated and the measured vertical never grows, shrinks at least geometrically, and falls
below every bound after enough samples, whatever their timestamps are, unless the sensor starts
upside down. -/
theorem levels (self : AttitudeEstimator ℝ Q) (noIntegral : self.ki = 0) (gain : 0 < self.kp)
    (moderate : self.kp ≤ 10) (a : Vec3 ℝ) :
    (∀ readings, (∀ r ∈ readings, AtRest glam a r) →
      tilt glam (after (AttitudeEstimator.update glam) self readings) a ≤
        tilt glam self a *
          decay self.kp (tilt glam self a) ^ (readings.length - 1)) ∧
    (∀ pre post, (∀ r ∈ pre ++ post, AtRest glam a r) →
      tilt glam (after (AttitudeEstimator.update glam) self (pre ++ post)) a ≤
        tilt glam (after (AttitudeEstimator.update glam) self pre) a) ∧
    (tilt glam self a < Real.pi → ∀ ε > 0, ∃ count, ∀ readings, count ≤ readings.length →
      (∀ r ∈ readings, AtRest glam a r) →
        tilt glam (after (AttitudeEstimator.update glam) self readings) a ≤ ε) := by
  -- the gains never change
  have moved (readings : List (ImuReading ℝ)) :
      (after (AttitudeEstimator.update glam) self readings).ki = self.ki ∧
        (after (AttitudeEstimator.update glam) self readings).kp = self.kp := by
    induction readings using List.reverseRecOn with
    | nil => exact ⟨rfl, rfl⟩
    | append_singleton readings r ih =>
      rw [after_concat, update_ki, update_kp]
      exact ih
  have nonneg := tilt_nonneg glam self a
  refine ⟨fun readings rest => tilt_after lawful spins noIntegral gain.le moderate rest, ?_, ?_⟩
  · intro pre post rest
    have others : ∀ r ∈ post, AtRest glam a r := fun r hr => rest r (List.mem_append_right _ hr)
    obtain ⟨ki, kp⟩ := moved pre
    have bound := tilt_after lawful spins (ki.trans noIntegral) (gain.le.trans_eq kp.symm)
      (kp.trans_le moderate) others
    have before := tilt_nonneg glam (after (AttitudeEstimator.update glam) self pre) a
    obtain ⟨low, high⟩ := decay_mem (gain.le.trans_eq kp.symm) (kp.trans_le moderate) before
      (tilt_le_pi glam _ a)
    rw [after, List.foldl_append]
    exact bound.trans (mul_le_of_le_one_right before (pow_le_one₀ low high))
  · intro upright ε positive
    obtain ⟨low, -⟩ := decay_mem gain.le moderate nonneg upright.le
    rcases nonneg.eq_or_lt with level | tilted
    · refine ⟨0, fun readings _ rest => ?_⟩
      have bound := tilt_after lawful spins noIntegral gain.le moderate rest
      rw [← level, zero_mul] at bound
      exact bound.trans positive.le
    -- upside down the sine is zero, and the correction stands still
    · have less : decay self.kp (tilt glam self a) < 1 := by
        have sine : 0 < Real.sin (tilt glam self a) := Real.sin_pos_of_pos_of_lt_pi tilted upright
        have taken : 0 < self.kp / 10000 * (Real.sin (tilt glam self a) / tilt glam self a) := by
          positivity
        rw [decay]
        linarith
      obtain ⟨n, small⟩ := exists_pow_lt_of_lt_one (div_pos positive tilted) less
      refine ⟨n + 1, fun readings enough rest => ?_⟩
      have bound := tilt_after lawful spins noIntegral gain.le moderate rest
      have more : n ≤ readings.length - 1 := Nat.le_sub_of_add_le enough
      calc tilt glam (after (AttitudeEstimator.update glam) self readings) a
          ≤ tilt glam self a * decay self.kp (tilt glam self a) ^ (readings.length - 1) := bound
        _ ≤ tilt glam self a * decay self.kp (tilt glam self a) ^ n :=
            mul_le_mul_of_nonneg_left (pow_le_pow_of_le_one low less.le more) nonneg
        _ ≤ tilt glam self a * (ε / tilt glam self a) :=
            mul_le_mul_of_nonneg_left small.le nonneg
        _ = ε := mul_div_cancel₀ ε tilted.ne'

end Rest

theorem exact_spins : Spins exact where
  length _ := rfl
  turn n φ v unit := by
    change Foundation.UnitQuaternions.turn
      (Foundation.UnitQuaternions.scaledAxis (scale n φ)) v = _
    have about := Foundation.UnitQuaternions.scaledAxis_smul ⟨n, unit⟩ φ
    rw [scale_eq_smul]
    rw [about, Foundation.UnitQuaternions.turn_about]
    ext k
    rw [Vectors.add_apply, Vectors.add_apply, scale_apply, scale_apply, scale_apply, dot]
    simp only [Pi.add_apply, Pi.smul_apply, smul_eq_mul, mul_comm]
    rfl

def tilted : Vec3 ℝ := ![0, 1, 1]

theorem length_tilted : exact.length tilted = √2 := by
  rw [exact_spins.length]
  change √(0 * 0 + 1 * 1 + 1 * 1 : ℝ) = √2
  norm_num

def tiltedReading (ts : UInt64) : ImuReading ℝ := ⟨fun _ => 0, tilted, ts⟩

theorem atRest_tilted (ts : UInt64) : AtRest exact tilted (tiltedReading ts) :=
  ⟨rfl, rfl, by
    rw [length_tilted]
    exact ⟨Real.lt_sqrt_of_sq_lt (by norm_num), Real.sqrt_lt' (by norm_num) |>.mpr (by norm_num)⟩⟩

theorem tilt_tilted : tilt exact (withGains exact 5 0) tilted < Real.pi := by
  refine lt_of_le_of_ne (Real.arccos_le_pi _) (mt Real.arccos_eq_pi.mp (not_le.mpr ?_))
  have up : predictedUp exact (withGains exact 5 0) = ![0, 0, 1] := by
    change Foundation.UnitQuaternions.turn 1⁻¹ ![0, 0, 1] = _
    rw [inv_one, Foundation.UnitQuaternions.turn_one]
  rw [up, dot_vertical, measuredUp, length_tilted]
  change (-1 : ℝ) < 1 / √2
  have positive : 0 < 1 / √2 := by positivity
  linarith

theorem levels_tilted :
    tilt exact (after (AttitudeEstimator.update exact) (withGains exact 5 0)
        [tiltedReading 0, tiltedReading 5000000, tiltedReading 4000000]) tilted ≤
      tilt exact (withGains exact 5 0) tilted *
        decay 5 (tilt exact (withGains exact 5 0) tilted) ^ 2 ∧
    ∃ count, ∀ readings, count ≤ readings.length → (∀ r ∈ readings, AtRest exact tilted r) →
      tilt exact (after (AttitudeEstimator.update exact) (withGains exact 5 0) readings) tilted ≤
        1 / 100 := by
  have all := levels exact_lawful exact_spins (withGains exact 5 0) rfl
    (by change (0 : ℝ) < 5; norm_num) (by change (5 : ℝ) ≤ 10; norm_num) tilted
  refine ⟨all.1 _ ?_, all.2.2 tilt_tilted _ (by norm_num)⟩
  intro r member
  simp only [List.mem_cons, List.not_mem_nil, or_false] at member
  rcases member with rfl | rfl | rfl <;> exact atRest_tilted _

end

end LivoxMid360.Imu.Levelling
