/- digest: The attitude filter of the IMU, and the history of its orientations. -/

import LivoxMid360.Encoder.CloudBuffer
import LivoxMid360.Encoder.Vectors
import LivoxMid360.Foundation.Neighbours
import LivoxMid360.Foundation.RustOutcome
import Mathlib.Algebra.Order.Field.Basic

set_option autoImplicit false
set_option relaxedAutoImplicit false

namespace LivoxMid360.Imu.Attitude

open Foundation.RustOutcome
open Foundation.Retention Foundation.Neighbours
open Foundation.Transition (after after_concat)
open Encoder.Vectors
open Encoder.CloudBuffer (saturatingSub toNat_saturatingSub)
open scoped Encoder.CloudBuffer

universe u

/-- The part of `glam::Quat` that the history calls, over exact numbers. -/
structure Slerp (K Q : Type) where
  identity : Q
  slerp : Q → Q → K → Q

/-- The other functions of `glam` that are called. -/
structure Glam (K Q : Type) extends Slerp K Q where
  conjugate : Q → Q
  mul : Q → Q → Q
  normalize : Q → Q
  fromScaledAxis : Vec3 K → Q
  rotate : Q → Vec3 K → Vec3 K
  length : Vec3 K → K

section Estimator

variable {K Q : Type} [Field K] [LinearOrder K]

def clamp (x lo hi : K) : K := if x < lo then lo else if hi < x then hi else x

def seconds (ns : UInt64) : K := ns.toNat * (1 / 1000000000)

/-- The time that an update integrates over, which a timestamp glitch should not blow up. -/
def clampedDt (prev ts : UInt64) : K := clamp (seconds (saturatingSub ts prev)) (1 / 10000) (1 / 10)

structure AttitudeEstimator (K Q : Type) where
  q : Q
  integral : Vec3 K
  kp : K
  ki : K
  lastTs : Option UInt64

/-- One IMU sample: `gyro` in rad/s, `acc` in g, `ts` in ns. -/
structure ImuReading (K : Type) where
  gyro : Vec3 K
  acc : Vec3 K
  ts : UInt64

namespace AttitudeEstimator

def new (glam : Glam K Q) : AttitudeEstimator K Q := ⟨glam.identity, fun _ => 0, 1, 1 / 200, none⟩

def withGains (glam : Glam K Q) (kp ki : K) : AttitudeEstimator K Q := { new glam with kp, ki }

/-- The correction by the accelerometer, which is trusted only when gravity dominates it. -/
def correct (glam : Glam K Q) (self : AttitudeEstimator K Q) (gyro acc : Vec3 K) (dt : K) :
    Vec3 K × Vec3 K :=
  let accMag := glam.length acc
  if 1 / 2 < accMag ∧ accMag < 2 then
    let measuredUp : Vec3 K := fun k => acc k / accMag
    let predictedUp := glam.rotate (glam.conjugate self.q) ![0, 0, 1]
    let error := cross measuredUp predictedUp
    let integral := add self.integral (scale error dt)
    (add (add gyro (scale error self.kp)) (scale integral self.ki), integral)
  else (gyro, self.integral)

def integrate (glam : Glam K Q) (self : AttitudeEstimator K Q) (gyro acc : Vec3 K) (dt : K) :
    AttitudeEstimator K Q :=
  let (gyroCorr, integral) := self.correct glam gyro acc dt
  let dq := glam.fromScaledAxis (scale gyroCorr dt)
  { self with q := glam.normalize (glam.mul self.q dq), integral }

/-- The first sample only sets the clock. -/
def update (glam : Glam K Q) (self : AttitudeEstimator K Q) (r : ImuReading K) :
    AttitudeEstimator K Q :=
  match self.lastTs with
  | none => { self with lastTs := some r.ts }
  | some prev =>
    { self with lastTs := some r.ts }.integrate glam r.gyro r.acc (clampedDt prev r.ts)

@[simp] theorem update_lastTs (glam : Glam K Q) (self : AttitudeEstimator K Q)
    (r : ImuReading K) : (self.update glam r).lastTs = some r.ts := by
  rw [update]
  cases self.lastTs with
  | none => rfl
  | some prev => rfl

end AttitudeEstimator

end Estimator

section History

variable {K Q : Type} {ε : Type u}

abbrev Sample (Q : Type) := UInt64 × Q

structure OrientationHistory (Q : Type) where
  samples : List (Sample Q)
  maxLen : Nat

namespace OrientationHistory

def new (maxLen : Nat) : OrientationHistory Q := ⟨[], maxLen⟩

def evict (maxLen : Nat) : List (Sample Q) → List (Sample Q)
  | [] => []
  -- the `while` of `push`: the front goes as long as the queue is over its length
  | s :: rest => if maxLen < rest.length + 1 then evict maxLen rest else s :: rest

def push (self : OrientationHistory Q) (s : Sample Q) : OrientationHistory Q :=
  { self with samples := evict self.maxLen (self.samples ++ [s]) }

variable [Field K] [LinearOrder K]

def interpolate (glam : Slerp K Q) (profile : Profile) (ts : UInt64) (x y : Sample Q) :
    Outcome ε Q := do
  let span ← u64Sub profile y.1 x.1
  if 0 < (span.toNat : K) then
    let behind ← u64Sub profile ts x.1
    return glam.slerp x.2 y.2 (behind.toNat / span.toNat)
  else return glam.slerp x.2 y.2 0

def scan (glam : Slerp K Q) (profile : Profile) (ts : UInt64) (last : Sample Q) :
    List (Sample Q) → Outcome ε Q
  | x :: y :: rest =>
    if x.1 ≤ ts ∧ ts ≤ y.1 then interpolate glam profile ts x y
    else scan glam profile ts last (y :: rest)
  -- the loop has run out of pairs
  | _ => return last.2

/-- `at`: interpolate the orientation at a timestamp, clamping to the buffer ends. -/
def orientationAt (glam : Slerp K Q) (profile : Profile) (self : OrientationHistory Q)
    (ts : UInt64) : Outcome ε Q :=
  match self.samples with
  | [] => return glam.identity
  | first :: rest =>
    let last := rest.getLast?.getD first
    if ts ≤ first.1 then return first.2
    else if last.1 ≤ ts then return last.2
    else scan glam profile ts last (first :: rest)

end OrientationHistory

def pushed (maxLen : Nat) (pushes : List (Sample Q)) : OrientationHistory Q :=
  after OrientationHistory.push (.new maxLen) pushes

end History

section Kept

variable {Q : Type}

theorem evict_eq (maxLen : Nat) (samples : List (Sample Q)) :
    OrientationHistory.evict maxLen samples = samples.rtake maxLen := by
  induction samples with
  | nil => exact (rtake_of_length_le (Nat.zero_le maxLen)).symm
  | cons s rest ih =>
    rw [OrientationHistory.evict]
    by_cases long : maxLen < rest.length + 1
    · have shorter : maxLen ≤ rest.length := Nat.le_of_lt_succ long
      rw [if_pos long, ih]
      exact (rtake_append_of_le shorter [s]).symm
    · rw [if_neg long]
      exact (rtake_of_length_le (Nat.le_of_not_lt long)).symm

/-- A history keeps the last pushes that it has room for. -/
theorem pushed_eq (maxLen : Nat) (pushes : List (Sample Q)) :
    pushed maxLen pushes = ⟨pushes.rtake maxLen, maxLen⟩ := by
  induction pushes using List.reverseRecOn with
  | nil =>
    rw [rtake_of_length_le (Nat.zero_le maxLen)]
    rfl
  | append_singleton pushes s ih =>
    have before : after OrientationHistory.push (.new maxLen) pushes =
        ⟨pushes.rtake maxLen, maxLen⟩ := ih
    rw [pushed, after_concat, before, OrientationHistory.push, evict_eq, rtake_rtake_append]

end Kept

section Lookup

variable {K Q : Type} [Field K] [LinearOrder K] {ε : Type u}
  {glam : Slerp K Q} {profile : Profile} {ts : UInt64} {x y first last : Sample Q}

def fraction (t0 t1 ts : UInt64) : K := (ts.toNat - t0.toNat : K) / (t1.toNat - t0.toNat : K)

omit [LinearOrder K] in
theorem cast_sub_of_le {a b : UInt64} (h : b ≤ a) :
    ((a - b).toNat : K) = a.toNat - b.toNat := by
  rw [UInt64.toNat_sub_of_le a b h, Nat.cast_sub (UInt64.le_iff_toNat_le.mp h)]

/-- Between its neighbours no subtraction underflows, and a span of zero is no division by
zero. -/
theorem interpolate_eq [IsStrictOrderedRing K] (later : x.1 ≤ ts) (notLater : ts ≤ y.1) :
    (OrientationHistory.interpolate glam profile ts x y : Outcome ε Q) =
      .ok (glam.slerp x.2 y.2 (fraction x.1 y.1 ts)) := by
  have ordered : x.1 ≤ y.1 := later.trans notLater
  rw [OrientationHistory.interpolate, u64Sub_of_le profile ordered, Outcome.ok_bind,
    cast_sub_of_le ordered]
  by_cases apart : (0 : K) < y.1.toNat - x.1.toNat
  · rw [if_pos apart, u64Sub_of_le profile later, Outcome.ok_bind, cast_sub_of_le later]
    rfl
  · have same : (y.1.toNat - x.1.toNat : K) = 0 := by
      apply le_antisymm (not_lt.mp apart)
      rw [← cast_sub_of_le ordered]
      exact Nat.cast_nonneg _
    rw [if_neg apart, fraction, same, div_zero]
    rfl

theorem scan_eq (samples : List (Sample Q)) :
    (OrientationHistory.scan glam profile ts last samples : Outcome ε Q) =
      match enclosing Prod.fst ts samples with
      | some (x, y) => OrientationHistory.interpolate glam profile ts x y
      | none => .ok last.2 := by
  induction samples with
  | nil => rfl
  | cons x samples ih =>
    cases samples with
    | nil => rfl
    | cons y rest =>
      rw [OrientationHistory.scan, enclosing]
      by_cases around : x.1 ≤ ts ∧ ts ≤ y.1
      · rw [if_pos around, if_pos around]
      · rw [if_neg around, if_neg around, ih]

variable {history : OrientationHistory Q}

theorem orientationAt_empty (empty : history.samples = []) :
    (history.orientationAt glam profile ts : Outcome ε Q) = .ok glam.identity := by
  rw [OrientationHistory.orientationAt, empty]
  rfl

theorem orientationAt_oldest (begins : history.samples.head? = some first)
    (notAfter : ts ≤ first.1) :
    (history.orientationAt glam profile ts : Outcome ε Q) = .ok first.2 := by
  obtain ⟨rest, split⟩ := List.head?_eq_some_iff.mp begins
  rw [OrientationHistory.orientationAt, split]
  exact if_pos notAfter

theorem orientationAt_later (begins : history.samples.head? = some first)
    (ends : history.samples.getLast? = some last) (passed : first.1 < ts) :
    (history.orientationAt glam profile ts : Outcome ε Q) =
      if last.1 ≤ ts then .ok last.2
      else OrientationHistory.scan glam profile ts last history.samples := by
  obtain ⟨rest, split⟩ := List.head?_eq_some_iff.mp begins
  rw [split, List.getLast?_cons, Option.some_inj] at ends
  rw [OrientationHistory.orientationAt, split]
  dsimp only
  rw [ends, if_neg (not_le.mpr passed)]
  rfl

end Lookup

end LivoxMid360.Imu.Attitude
